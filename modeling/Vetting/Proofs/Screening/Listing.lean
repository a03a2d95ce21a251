import Vetting.Proofs.Screening.Scan

/-!
# The shape of a scan

A scan gives one finding for a source that one of the two readers refuses (`Python.Readers.Unparsed`), and otherwise
the notices on its size followed by what the screening found, in the order of the places (`Listed`). `scan_shape` says
that it is always one of both, whatever trees the readers give, and what the stage makes of it.
-/

namespace Vetting

/-! ### The order of findings -/

namespace Finding

/-- The place of the first finding is not behind that of the second; having none comes before having one. -/
def InOrder (f g : Finding) : Prop :=
  ∀ p, f.location = some p → ∃ q, g.location = some q ∧ (p.line < q.line ∨ p.line = q.line ∧ p.column ≤ q.column)

theorem inOrder_of_location_eq_none {f g : Finding} (h : f.location = none) : f.InOrder g :=
  fun _ hp => nomatch h.symm.trans hp

theorem pairwise_inOrder_of_location_eq_none {l : List Finding} (h : ∀ f ∈ l, f.location = none) :
    l.Pairwise InOrder :=
  (List.pairwise_of_forall fun _ _ => trivial).imp_of_mem fun hf _ _ => inOrder_of_location_eq_none (h _ hf)

theorem InOrder.trans {f g k : Finding} (hfg : f.InOrder g) (hgk : g.InOrder k) : f.InOrder k := by
  intro p hp
  obtain ⟨q, hq, hpq⟩ := hfg p hp
  obtain ⟨r, hr, hqr⟩ := hgk q hq
  exact ⟨r, hr, by omega⟩

theorem InOrder.total (f g : Finding) : f.InOrder g ∨ g.InOrder f := by
  cases hf : f.location with
  | none => exact .inl (inOrder_of_location_eq_none hf)
  | some p =>
    cases hg : g.location with
    | none => exact .inr (inOrder_of_location_eq_none hg)
    | some q =>
      by_cases h : p.line < q.line ∨ p.line = q.line ∧ p.column ≤ q.column
      · refine .inl fun p' hp' => ⟨q, hg, ?_⟩
        cases hf.symm.trans hp'
        exact h
      · refine .inr fun q' hq' => ⟨p, hf, ?_⟩
        cases hg.symm.trans hq'
        omega

end Finding

theorem Location.isLE_compare_iff {p q : Location} :
    (p.compare q).isLE = true ↔ p.line < q.line ∨ p.line = q.line ∧ p.column ≤ q.column := by
  unfold compare
  obtain hlt | heq | hgt := Nat.lt_trichotomy p.line q.line
  · simp [Nat.compare_eq_lt.mpr hlt, hlt]
  · simp [heq, Nat.isLE_compare]
  · simp [Nat.compare_eq_gt.mpr hgt]
    omega

namespace Screening

open Python

theorem comesBefore_iff {f g : Finding} : comesBefore f g = true ↔ f.InOrder g := by
  unfold comesBefore
  split
  · rename_i hf
    exact ⟨fun _ => Finding.inOrder_of_location_eq_none hf, fun _ => rfl⟩
  · rename_i p hf hg
    refine ⟨nofun, fun h => ?_⟩
    obtain ⟨q, hq, -⟩ := h p hf
    cases hg.symm.trans hq
  · rename_i p q hf hg
    rw [Location.isLE_compare_iff]
    constructor
    · intro h p' hp'
      cases hf.symm.trans hp'
      exact ⟨q, hg, h⟩
    · intro h
      obtain ⟨q', hq', h⟩ := h p hf
      cases hg.symm.trans hq'
      exact h

/-- The findings of the screening are in order. -/
theorem pairwise_findings (d : Denylist) (root : Node) : (findings d root).Pairwise Finding.InOrder := by
  refine (List.pairwise_mergeSort ?_ ?_ _).imp comesBefore_iff.mp
  · intro f g k hfg hgk
    rw [comesBefore_iff] at hfg hgk ⊢
    exact hfg.trans hgk
  · intro f g
    rw [Bool.or_eq_true, comesBefore_iff, comesBefore_iff]
    exact Finding.InOrder.total f g

theorem Screened.location_isSome {f : Finding} (h : Screened f) : f.location.isSome = true := by
  cases h <;> rfl

end Screening

/-! ### The shape -/

namespace Prevalidation

/-- A notice on the size of a source: one finding without a place if the limit is exceeded, and else none. -/
def IsNotice (code : String) (exceeded : Prop) (found : List Finding) : Prop :=
  exceeded ∧ (∃ f, found = [f] ∧ f.code = some code ∧ f.location = none) ∨ ¬ exceeded ∧ found = []

/-- The findings for a program: notices on its size, and what the screening has found in its tree. -/
structure Listed (readers : Python.Readers) (denylist : Denylist) (limits : PrevalidationConfig) (source : List Char)
    (found : List Finding) : Prop where
  parts : ∃ tooLong tooMany root,
    found = tooLong ++ tooMany ++ Screening.findings denylist root ∧
      IsNotice "code-too-long" (limits.maxCodeLength < source.length) tooLong ∧
      IsNotice "too-many-lines" (limits.maxLines <
        source.count '\n' + if source.getLast?.all (· = '\n') then 0 else 1) tooMany ∧
      readers.tree? source = some root ∧
      ∀ f ∈ Screening.findings denylist root, f.location.isSome = true
  /-- The places rise, and what has none comes first. -/
  ordered : found.Pairwise Finding.InOrder
  /-- Nothing in the list can be taken for a syntax error. -/
  coded : ∀ f ∈ found, f.code ≠ some "syntax-error"

theorem exists_notices (limits : PrevalidationConfig) (source : List Char) :
    ∃ tooLong tooMany, limitFindings limits source = tooLong ++ tooMany ∧
      IsNotice "code-too-long" (limits.maxCodeLength < source.length) tooLong ∧
      IsNotice "too-many-lines" (limits.maxLines <
        source.count '\n' + if source.getLast?.all (· = '\n') then 0 else 1) tooMany := by
  rw [limitFindings, ← Text.length_lines]
  refine ⟨_, _, rfl, ?_, ?_⟩
  · split
    · exact .inl ⟨‹_›, _, rfl, rfl, rfl⟩
    · exact .inr ⟨‹_›, rfl⟩
  · split
    · exact .inl ⟨‹_›, _, rfl, rfl, rfl⟩
    · exact .inr ⟨‹_›, rfl⟩

theorem IsNotice.location_eq_none {code : String} {exceeded : Prop} {found : List Finding}
    (h : IsNotice code exceeded found) : ∀ f ∈ found, f.location = none := by
  obtain ⟨-, f, rfl, -, hf⟩ | ⟨-, rfl⟩ := h
  · exact List.forall_mem_singleton.mpr hf
  · exact List.forall_mem_nil _

section

variable {readers : Python.Readers} {denylist : Denylist} {limits : PrevalidationConfig} {source : List Char}

theorem listed_of_read {root : Python.Node} (h : readers.read source = .ok root) :
    Listed readers denylist limits source (findingsOf readers denylist limits source) := by
  obtain ⟨tooLong, tooMany, hnotices, hlong, hmany⟩ := exists_notices limits source
  have hscan : findingsOf readers denylist limits source =
      tooLong ++ tooMany ++ Screening.findings denylist root := by
    rw [findingsOf_of_ok h, ← hnotices]
  have hunplaced : ∀ f ∈ tooLong ++ tooMany, f.location = none :=
    List.forall_mem_append.mpr ⟨hlong.location_eq_none, hmany.location_eq_none⟩
  refine ⟨⟨tooLong, tooMany, root, hscan, hlong, hmany, (Python.Readers.read_eq_ok_iff.mp h).1, ?_⟩, ?_,
    fun f hf => code_ne_of_findingsOf h hf⟩
  · exact fun f hf => (Screening.screened_of_findings hf).location_isSome
  · rw [hscan]
    refine List.pairwise_append.mpr ⟨?_, Screening.pairwise_findings denylist root, ?_⟩
    · exact Finding.pairwise_inOrder_of_location_eq_none hunplaced
    · exact fun f hf _ _ => Finding.inOrder_of_location_eq_none (hunplaced f hf)

theorem exists_syntaxFinding_iff :
    (∃ f, findingsOf readers denylist limits source = [f] ∧ f.severity = .critical ∧ f.code = some "syntax-error") ↔
      readers.Unparsed source := by
  rw [← Python.Readers.exists_read_eq_error_iff]
  constructor
  · rintro ⟨f, hf, -, hcode⟩
    cases hr : readers.read source with
    | error r => exact ⟨r, rfl⟩
    | ok root => exact absurd hcode (code_ne_of_findingsOf hr (hf ▸ List.mem_singleton_self f))
  · rintro ⟨r, hr⟩
    exact ⟨syntaxFinding r, findingsOf_of_error hr, rfl, rfl⟩

end

/-- **The shape of a scan.** Once the grammar is set up, one critical finding tells of a source that has no tree, whose
tree has a flawed node or which does not compile; of the flawed nodes it is the first in source order that is told of.
For every other source there is a list that has no such finding. The stage fails on the first kind under every
threshold, and it is an error where there is no grammar. -/
theorem scan_shape (readers : Python.Readers) (denylist : Denylist) (limits : PrevalidationConfig)
    (source : List Char) :
    (readers.load = .ok () → ∃ found, scanWith readers denylist limits source = .ok found ∧
      ((∃ f, found = [f] ∧ f.severity = .critical ∧ f.code = some "syntax-error") ↔ readers.Unparsed source) ∧
      (∀ r, readers.Rejects source r → found = [⟨.critical, r.message, r.place?, some "syntax-error"⟩]) ∧
      (¬ readers.Unparsed source → Listed readers denylist limits source found)) ∧
    ∀ threshold,
      (isSyntaxFailure (runWith readers denylist limits threshold source) = true ↔
        readers.load = .ok () ∧ readers.Unparsed source) ∧
      (readers.load = .ok () → readers.Unparsed source →
        (runWith readers denylist limits threshold source).status = .failed) ∧
      ((runWith readers denylist limits threshold source).status = .errored ↔ ∃ e, readers.load = .error e) := by
  refine ⟨fun hload => ⟨_, scanWith_of_load hload, exists_syntaxFinding_iff, fun r hr => ?_, fun hn => ?_⟩,
    fun threshold => ⟨isSyntaxFailure_runWith_iff, fun hload hu => ?_, ?_⟩⟩
  · exact findingsOf_of_error (Python.Readers.read_eq_error_iff.mpr hr)
  · cases hr : readers.read source with
    | error r => exact absurd (Python.Readers.exists_read_eq_error_iff.mp ⟨r, hr⟩) hn
    | ok root => exact listed_of_read hr
  · exact status_runWith_of_isSyntaxFailure (isSyntaxFailure_runWith_iff.mpr ⟨hload, hu⟩)
  · cases hload : readers.load with
    | error e => simp [runWith_of_load_error hload, StageResult.errored]
    | ok u =>
      rw [runWith_of_load hload]
      refine iff_of_false (StageResult.ofFindings_status_ne (by simp)) ?_
      rintro ⟨e, he⟩
      cases he

/-- A program that is too long has a notice on that before what is found in it; an open bracket makes it none, and so
does the name of no character. What is missing inside of a statement that is sound by itself is told of before what is
broken behind it. -/
theorem scan_shape_tooLong :
    let denylist : Denylist := ⟨.empty, .ofList ["eval"], .empty⟩
    let limits : PrevalidationConfig := { maxCodeLength := 5 }
    let long := "f = eval\n".toList
    let opened := "f = (\n".toList
    let unnamed := "x = \"\\N\x7bNO SUCH NAME\x7d\"\n".toList
    let named : Python.Readers := .ofNames (· = "SNOWMAN".toList)
    let nested : Python.Node := .branch .module ⟨1, 1⟩
      [.mk .printStatement .part ⟨1, 1⟩ "print (x" [.branch .parenthesized ⟨1, 7⟩
        [.leaf .identifier ⟨1, 8⟩ "x", .leaf .missing ⟨1, 9⟩ ")"]], .leaf .error ⟨2, 1⟩ "]"]
    (scan denylist limits long).map (·.code) = [some "code-too-long", some "forbidden-reference"] ∧
      Listed .standard denylist limits long (scan denylist limits long) ∧
      Python.Readers.standard.Unparsed opened ∧ (run denylist limits .critical opened).status = .failed ∧
      named.Unparsed unnamed ∧ (runWith named denylist limits .critical unnamed).status = .failed ∧
      scanWith ⟨.ok (), fun _ => some nested, fun _ => .ok ()⟩ denylist limits long =
        .ok [⟨.critical, "syntax error: missing ')'", some ⟨1, 9⟩, some "syntax-error"⟩] := by
  intro denylist limits long opened unnamed named nested
  have hcodes : (scan denylist limits long).map (·.code) = [some "code-too-long", some "forbidden-reference"] := by
    decide +kernel
  obtain ⟨⟨found, hfound, hsingle, -, hlisted⟩, -⟩ :=
    (scan_shape .standard denylist limits long).imp_left fun h => h rfl
  cases Except.ok.inj (hfound.symm.trans (scanWith_of_load rfl))
  have hparsed : ¬ Python.Readers.standard.Unparsed long := fun h => by
    obtain ⟨f, hf, -⟩ := hsingle.mpr h
    rw [scan, hf] at hcodes
    exact absurd (congrArg List.length hcodes) (by simp)
  have hopened := (scan_shape .standard denylist limits opened).2 .critical
  have hunnamed := (scan_shape named denylist limits unnamed).2 .critical
  have hopen : Python.Readers.standard.Unparsed opened :=
    (hopened.1.mp (show isSyntaxFailure (run denylist limits .critical opened) = true by decide +kernel)).2
  have hname : named.Unparsed unnamed := (hunnamed.1.mp (by decide +kernel)).2
  refine ⟨hcodes, hlisted hparsed, hopen, hopened.2.1 rfl hopen, hname, hunnamed.2.1 rfl hname, ?_⟩
  obtain ⟨found, hfound, -, hfirst, -⟩ :=
    (scan_shape ⟨.ok (), fun _ => some nested, fun _ => .ok ()⟩ denylist limits long).1 rfl
  have hflaw : nested.firstFlaw? = some (.missing ")" ⟨1, 9⟩) := by decide +kernel
  obtain ⟨before, n, after, hnested, hn, hbefore⟩ := Python.Node.firstFlaw?_eq_some_iff.mp hflaw
  rw [hfound, hfirst _ (.flawed rfl hnested hn hbefore)]
  rfl

end Prevalidation

end Vetting
