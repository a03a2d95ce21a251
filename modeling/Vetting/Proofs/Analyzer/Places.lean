import Mathlib.Data.List.Forall2
import Vetting.Analyzer.Tool
import Vetting.Proofs.Json.Records

/-!
# Places in the output of tools

A tool's document states issues, in the order of its entries (`Tool.entries`, `Tool.stated?`), and these are the issues
that are read from it. Lines and columns are taken over as they are stated, whether they count from 1 or not, except that
a column is a word of 64 bits: the column behind the last offset of such a word goes around to 0
(`Tool.issuesOfText_stated`).
-/

namespace Vetting

open Json

/-! ### What is stated -/

/-- The text of a part, if it is one. -/
def Json.Doc.text? : Doc → Option String
  | .str value => value.toOption
  | _ => none

/-- The number without sign of a part, if it is one. -/
def Json.Doc.number? : Doc → Option Nat
  | .int (.ofNat n) => some n
  | _ => none

namespace Tool

def diagnosticNames : List String := ["code", "message", "location"]

def placeNames : List String := ["row", "column"]

def resultNames : List String := ["issue_severity", "issue_text", "test_id", "line_number", "col_offset"]

/-- The items of a part, if it is an array. -/
def itemsOf : Option Doc → List Doc
  | some (.seq items _) => items
  | _ => []

/-- The entries of a tool's document, in its order. -/
def entries : ToolFormat → Doc → List Doc
  | .diagnostics, root => itemsOf (some root)
  | .results, root => itemsOf (root.part? ["results"] "results")

/-- The place that a diagnostic states. -/
def statedPlace? (place : Doc) : Option Location := do
  let row ← (place.part? placeNames "row").bind Doc.number?
  let column ← (place.part? placeNames "column").bind Doc.number?
  return ⟨row, column⟩

def statedDiagnostic? (entry : Doc) : Option Issue := do
  let message ← (entry.part? diagnosticNames "message").bind Doc.text?
  let code := (entry.part? diagnosticNames "code").bind Doc.text?
  return ⟨diagnosticLevel code, message, code, (entry.part? diagnosticNames "location").bind statedPlace?⟩

/-- The issue that a result states; its offset is the number of characters before it, so the column is one more. -/
def statedResult? (entry : Doc) : Option Issue := do
  let level ← (entry.part? resultNames "issue_severity").bind Doc.text?
  let message ← (entry.part? resultNames "issue_text").bind Doc.text?
  let line := (entry.part? resultNames "line_number").bind Doc.number?
  let offset := ((entry.part? resultNames "col_offset").bind Doc.number?).getD 0
  return ⟨level, message, (entry.part? resultNames "test_id").bind Doc.text?, line.map fun line => ⟨line, offset + 1⟩⟩

/-- The issue that an entry states. -/
def stated? : ToolFormat → Doc → Option Issue
  | .diagnostics => statedDiagnostic?
  | .results => statedResult?

/-- The place as it is kept: a column is a word of 64 bits. -/
def keptPlace (l : Location) : Location := ⟨l.line, l.column % UInt64.size⟩

def kept (i : Issue) : Issue := { i with location := i.location.map keptPlace }

/-- Lines and columns count from 1. -/
def CountsFromOne (i : Issue) : Prop := ∀ l, i.location = some l → 1 ≤ l.line ∧ 1 ≤ l.column

/-- The column can be kept. -/
def Fits (i : Issue) : Prop := ∀ l, i.location = some l → l.column < UInt64.size

/-- The column goes beyond a word by one at most. -/
def NearlyFits (i : Issue) : Prop := ∀ l, i.location = some l → l.column ≤ UInt64.size

/-! ### Plain parts -/

variable {levels : Nat} {doc : Doc}

theorem finds_text : Decoder.string.Finds Doc.text? fun _ => True := by
  intro levels doc s h
  rw [Decoder.string_eq_ok h]
  exact ⟨rfl, trivial⟩

theorem finds_number : Decoder.usize.Finds Doc.number? fun n => n < UInt64.size := by
  intro levels doc n h
  obtain ⟨rfl, hn⟩ := Decoder.usize_eq_ok h
  exact ⟨rfl, hn⟩

/-! ### Diagnostics -/

theorem finds_place : diagnosticPlace.decoder.Finds statedPlace? fun l => l.column < UInt64.size := by
  intro levels doc l h
  have hrow : Shape.Holds Location.line "row" .refused .usize diagnosticPlace.fields :=
    .here (fun _ _ => rfl) <| .cons (by decide) (fun _ _ => rfl) .nil
  have hcolumn : Shape.Holds Location.column "column" .refused .usize diagnosticPlace.fields :=
    .there (by decide) (fun _ _ => rfl) <| .here (fun _ _ => rfl) .nil
  have hnames : Shape.names diagnosticPlace.fields = placeNames := rfl
  obtain ⟨hrow, -⟩ := finds_number.required hrow h
  obtain ⟨hcolumn, hfits⟩ := finds_number.required hcolumn h
  rw [hnames] at hrow hcolumn
  refine ⟨?_, hfits⟩
  rw [statedPlace?, hrow, hcolumn]
  rfl

/-- A diagnostic that was read is the one that its entry states. -/
theorem stated?_of_diagnostic {d : Diagnostic} (h : diagnosticShape.decoder levels doc = .ok d) :
    stated? .diagnostics doc = some (diagnosticIssue d) ∧ Fits (diagnosticIssue d) := by
  have hcode : Shape.Holds Diagnostic.code "code" .allowedByName Decoder.string.optional diagnosticShape.fields :=
    .here (fun _ _ => rfl) <| .cons (by decide) (fun _ _ => rfl) <| .cons (by decide) (fun _ _ => rfl) .nil
  have hmessage : Shape.Holds Diagnostic.message "message" .refused .string diagnosticShape.fields :=
    .there (by decide) (fun _ _ => rfl) <| .here (fun _ _ => rfl) <| .cons (by decide) (fun _ _ => rfl) .nil
  have hlocation : Shape.Holds Diagnostic.location "location" .allowedByName diagnosticPlace.decoder.optional
      diagnosticShape.fields :=
    .there (by decide) (fun _ _ => rfl) <| .there (by decide) (fun _ _ => rfl) <| .here (fun _ _ => rfl) .nil
  have hnames : Shape.names diagnosticShape.fields = diagnosticNames := rfl
  obtain ⟨hcode, -⟩ := finds_text.nullable rfl hcode rfl h
  obtain ⟨hmessage, -⟩ := finds_text.required hmessage h
  obtain ⟨hlocation, hfits⟩ := finds_place.nullable rfl hlocation rfl h
  rw [hnames] at hcode hmessage hlocation
  refine ⟨?_, hfits⟩
  rw [stated?, statedDiagnostic?, hcode, hmessage, hlocation]
  rfl

/-! ### Results -/

/-- The issue of a result without the bound on its column. -/
def exactIssue (r : Result) : Issue :=
  ⟨r.severity, r.text, r.test, r.line.map fun line => ⟨line, r.offset.getD 0 + 1⟩⟩

theorem kept_exactIssue (r : Result) : kept (exactIssue r) = resultIssue r := by
  rcases r with ⟨severity, text, test, _ | line, offset⟩
  · rfl
  · rfl

theorem nearlyFits_exactIssue {r : Result} (h : ∀ n, r.offset = some n → n < UInt64.size) :
    NearlyFits (exactIssue r) := by
  intro l hl
  obtain ⟨line, -, rfl⟩ := Option.map_eq_some_iff.mp hl
  -- An offset is a word, so the column behind it is one too far at most; without an offset it is 1.
  cases hoffset : r.offset with
  | none => exact Nat.succ_le_of_lt (by decide)
  | some n => exact h n hoffset

/-- A result that was read is the one that its entry states, up to the bound on its column. -/
theorem stated?_of_result {r : Result} (h : resultShape.decoder levels doc = .ok r) :
    stated? .results doc = some (exactIssue r) ∧ NearlyFits (exactIssue r) := by
  have hlevel : Shape.Holds Result.severity "issue_severity" .refused .string resultShape.fields :=
    .here (fun _ _ => rfl) <| .cons (by decide) (fun _ _ => rfl) <| .cons (by decide) (fun _ _ => rfl) <|
      .cons (by decide) (fun _ _ => rfl) <| .cons (by decide) (fun _ _ => rfl) .nil
  have hmessage : Shape.Holds Result.text "issue_text" .refused .string resultShape.fields :=
    .there (by decide) (fun _ _ => rfl) <| .here (fun _ _ => rfl) <| .cons (by decide) (fun _ _ => rfl) <|
      .cons (by decide) (fun _ _ => rfl) <| .cons (by decide) (fun _ _ => rfl) .nil
  have htest : Shape.Holds Result.test "test_id" .allowedByName Decoder.string.optional resultShape.fields :=
    .there (by decide) (fun _ _ => rfl) <| .there (by decide) (fun _ _ => rfl) <| .here (fun _ _ => rfl) <|
      .cons (by decide) (fun _ _ => rfl) <| .cons (by decide) (fun _ _ => rfl) .nil
  have hline : Shape.Holds Result.line "line_number" .allowedByName Decoder.usize.optional resultShape.fields :=
    .there (by decide) (fun _ _ => rfl) <| .there (by decide) (fun _ _ => rfl) <|
      .there (by decide) (fun _ _ => rfl) <| .here (fun _ _ => rfl) <| .cons (by decide) (fun _ _ => rfl) .nil
  have hoffset : Shape.Holds Result.offset "col_offset" .allowedByName Decoder.usize.optional resultShape.fields :=
    .there (by decide) (fun _ _ => rfl) <| .there (by decide) (fun _ _ => rfl) <|
      .there (by decide) (fun _ _ => rfl) <| .there (by decide) (fun _ _ => rfl) <| .here (fun _ _ => rfl) .nil
  have hnames : Shape.names resultShape.fields = resultNames := rfl
  obtain ⟨hlevel, -⟩ := finds_text.required hlevel h
  obtain ⟨hmessage, -⟩ := finds_text.required hmessage h
  obtain ⟨htest, -⟩ := finds_text.nullable rfl htest rfl h
  obtain ⟨hline, -⟩ := finds_number.nullable rfl hline rfl h
  obtain ⟨hoffset, hfits⟩ := finds_number.nullable rfl hoffset rfl h
  rw [hnames] at hlevel hmessage htest hline hoffset
  refine ⟨?_, nearlyFits_exactIssue hfits⟩
  rw [stated?, statedResult?, hlevel, hmessage, htest, hline, hoffset]
  rfl

/-! ### Whole outputs -/

theorem kept_eq_iff (i : Issue) : kept i = i ↔ Fits i := by
  rcases i with ⟨level, message, code, _ | ⟨line, column⟩⟩
  · exact ⟨fun _ => nofun, fun _ => rfl⟩
  · constructor
    · intro h l hl
      cases hl
      have hplace : keptPlace ⟨line, column⟩ = ⟨line, column⟩ := Option.some.inj (congrArg Issue.location h)
      have hcolumn : column % UInt64.size = column := congrArg Location.column hplace
      rw [← hcolumn]
      exact Nat.mod_lt _ (by decide)
    · intro h
      have hcolumn : column % UInt64.size = column := Nat.mod_eq_of_lt (h _ rfl)
      rw [kept, Option.map_some, keptPlace, hcolumn]

/-- A column that does not fit goes around to 0, if it nearly fits. -/
theorem countsFromOne_kept_iff {i : Issue} (h : NearlyFits i) : CountsFromOne (kept i) ↔ CountsFromOne i ∧ Fits i := by
  rcases i with ⟨level, message, code, _ | ⟨line, column⟩⟩
  · exact ⟨fun _ => ⟨nofun, nofun⟩, fun _ => nofun⟩
  · have hle : column ≤ UInt64.size := h _ rfl
    constructor
    · intro hkept
      have hcounts : 1 ≤ line ∧ 1 ≤ column % UInt64.size := hkept _ rfl
      have hfits : column < UInt64.size := by
        apply Nat.lt_of_le_of_ne hle
        rintro rfl
        rw [Nat.mod_self] at hcounts
        exact absurd hcounts.2 (by decide)
      rw [Nat.mod_eq_of_lt hfits] at hcounts
      constructor
      · intro l hl
        cases hl
        exact hcounts
      · intro l hl
        cases hl
        exact hfits
    · rintro ⟨hcounts, hfits⟩
      rw [(kept_eq_iff _).mpr hfits]
      exact hcounts

variable {α : Type} {read : Doc → Except DecodeError α} {stated : Doc → Option Issue} {issue : α → Issue}
  {P : Issue → Prop}

/-- Items that were read one by one are what their entries state. -/
theorem stated_of_mapM {items : List Doc} {values : List α} (h : items.mapM read = .ok values)
    (heach : ∀ item value, read item = .ok value → stated item = some (issue value) ∧ P (issue value)) :
    items.map stated = (values.map issue).map some ∧ ∀ i ∈ values.map issue, P i := by
  induction items generalizing values with
  | nil =>
    cases h
    exact ⟨rfl, nofun⟩
  | cons item rest ih =>
    rw [List.mapM_cons] at h
    obtain ⟨value, hvalue, h⟩ := exists_of_bind_eq_ok h
    obtain ⟨more, hmore, h⟩ := exists_of_bind_eq_ok h
    cases h
    obtain ⟨hstated, hissue⟩ := heach item value hvalue
    obtain ⟨hrest, hissues⟩ := ih hmore
    constructor
    · rw [List.map_cons, hstated, hrest]
      rfl
    · exact List.forall_mem_cons.mpr ⟨hissue, hissues⟩

theorem entries_of_diagnostics {found : List Diagnostic}
    (h : (Decoder.list diagnosticShape.decoder) levels doc = .ok found) :
    (entries .diagnostics doc).map (stated? .diagnostics) = (found.map diagnosticIssue).map some ∧
      ∀ i ∈ found.map diagnosticIssue, Fits i := by
  obtain ⟨items, stop, inner, rfl, hitems⟩ := Decoder.list_eq_ok h
  exact stated_of_mapM hitems fun _ _ => stated?_of_diagnostic

theorem entries_of_results {found : List Result} (h : reportShape.decoder levels doc = .ok found) :
    (entries .results doc).map (stated? .results) = (found.map exactIssue).map some ∧
      ∀ i ∈ found.map exactIssue, NearlyFits i := by
  have hresults : Shape.Holds id "results" .allowed (.list resultShape.decoder) reportShape.fields :=
    .here (fun _ _ => rfl) .nil
  obtain ⟨inner, htook⟩ := hresults.took h
  change Took _ inner [] (doc.part? ["results"] "results") found at htook
  rw [entries]
  generalize doc.part? ["results"] "results" = part at htook ⊢
  cases htook with
  | given hread =>
    obtain ⟨items, stop, inner, rfl, hitems⟩ := Decoder.list_eq_ok hread
    exact stated_of_mapM hitems fun _ _ => stated?_of_result
  | absent => exact ⟨rfl, nofun⟩

/-- **Issues are read as they are stated, up to the width of columns.** What is read from a tool's output has one issue
for each entry of its document, in the order of the entries, and a place is the stated one, where a column that does not
fit into a word goes around. So a place counts from 1 if and only if the stated one does and its column fits, which only
a column behind an offset can fail to do. -/
theorem issuesOfText_stated {format : ToolFormat} {text : String} {issues : List Issue}
    (h : issuesOfText format text = .ok issues) :
    ∃ stated : List Issue, (entries format (Document.ofText text).root).map (stated? format) = stated.map some ∧
      issues = stated.map kept ∧
      ∀ i ∈ stated, (kept i = i ↔ Fits i) ∧ (CountsFromOne (kept i) ↔ CountsFromOne i ∧ Fits i) ∧
        (format = .diagnostics → Fits i) := by
  cases format with
  | diagnostics =>
    obtain ⟨found, hread, rfl⟩ := exists_of_map_eq_ok h
    obtain ⟨hentries, hfits⟩ := entries_of_diagnostics (Decoder.ofText_eq_ok (eq_ok_of_mapError hread))
    refine ⟨found.map diagnosticIssue, hentries, ?_, fun i hi => ?_⟩
    · have hkept : ∀ i ∈ found.map diagnosticIssue, kept i = id i := fun i hi => (kept_eq_iff i).mpr (hfits i hi)
      rw [List.map_congr_left hkept, List.map_id]
    · exact ⟨kept_eq_iff i, countsFromOne_kept_iff fun l hl => Nat.le_of_lt (hfits i hi l hl), fun _ => hfits i hi⟩
  | results =>
    obtain ⟨found, hread, rfl⟩ := exists_of_map_eq_ok h
    obtain ⟨hentries, hnearly⟩ := entries_of_results (Decoder.ofText_eq_ok (eq_ok_of_mapError hread))
    refine ⟨found.map exactIssue, hentries, ?_, fun i hi => ?_⟩
    · rw [List.map_map]
      exact List.map_congr_left fun r _ => (kept_exactIssue r).symm
    · exact ⟨kept_eq_iff i, countsFromOne_kept_iff (hnearly i hi), nofun⟩

/-- An output with one result, at the last of all offsets. -/
def farResult : String :=
  "\x7b\"results\":[\x7b\"issue_severity\":\"LOW\",\"issue_text\":\"a\"," ++
    "\"line_number\":1,\"col_offset\":18446744073709551615\x7d]\x7d"

theorem issuesOfText_stated_farResult :
    ∃ i : Issue, (entries .results (Document.ofText farResult).root).map (stated? .results) = [some i] ∧
      issuesOfText .results farResult = .ok [kept i] ∧
      i.location = some ⟨1, UInt64.size⟩ ∧ CountsFromOne i ∧ ¬CountsFromOne (kept i) := by
  have hread : issuesOfText .results farResult = .ok [⟨"LOW", "a", none, some ⟨1, 0⟩⟩] := by decide +kernel
  have hentries : (entries .results (Document.ofText farResult).root).map (stated? .results) =
      [some ⟨"LOW", "a", none, some ⟨1, UInt64.size⟩⟩] := by decide +kernel
  obtain ⟨stated, hstated, -, hall⟩ := issuesOfText_stated hread
  obtain ⟨i, rfl, hi⟩ := List.map_eq_singleton_iff.mp (hstated.symm.trans hentries)
  cases hi
  obtain ⟨-, hcounts, -⟩ := hall _ List.mem_cons_self
  refine ⟨_, hentries, hread, rfl, ?_, fun hkept => ?_⟩
  · intro l hl
    cases hl
    decide
  · exact Nat.lt_irrefl _ ((hcounts.mp hkept).2 _ rfl)

end Tool

end Vetting
