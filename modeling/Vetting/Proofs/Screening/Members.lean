import Vetting.Proofs.Screening.Calls
import Vetting.Proofs.Screening.Scan

/-!
# Names that are fetched from modules

`Fetches` says which names a from-import fetches from its module, as they are called there. A member of a module may
be a module itself, and it is a forbidden one when the package is forbidden or its own dotted name is in the denylist
(`Denylist.forbidsModule_member`).

A from-import is looked at for the package, and for fetched names that are forbidden callables, and for nothing else
(`exists_foundIn_iff`): a forbidden module is not found in it that is fetched from a package that is not forbidden.
-/

namespace Vetting

/-- A member of a package is a forbidden module when the package is one, or when the member is one by its own name. -/
theorem Denylist.forbidsModule_member {d : Denylist} {package name : String} (hname : '.' ∉ name.toList) :
    d.forbidsModule (package ++ "." ++ name) = true ↔
      d.forbidsModule package = true ∨ d.modules.contains (package ++ "." ++ name) = true := by
  have htext : (package ++ "." ++ name).toList = package.toList ++ '.' :: name.toList := by
    rw [String.append_assoc, String.toList_append, String.toList_append]
    rfl
  rw [forbidsModule_iff, forbidsModule_iff, htext]
  constructor
  · rintro ⟨a, rest, ha, rfl | ⟨b, rfl⟩, hd⟩
    · rw [List.append_nil, ← htext] at ha
      rw [← ha, String.ofList_toList] at hd
      exact .inr hd
    · obtain ⟨c, hac, hc⟩ | ⟨c, hpackage, hc⟩ := List.append_eq_append_iff.mp ha
      · cases c with
        | nil =>
          rw [List.append_nil] at hac
          exact .inl ⟨a, [], by rw [List.append_nil, hac], .inl rfl, hd⟩
        | cons x c =>
          -- A point behind the one that follows the package would be in the name.
          rw [List.cons_append, List.cons.injEq] at hc
          rw [hc.2] at hname
          exact absurd (List.mem_append_right c List.mem_cons_self) hname
      · cases c with
        | nil => exact .inl ⟨a, [], hpackage, .inl rfl, hd⟩
        | cons x c =>
          rw [List.cons_append, List.cons.injEq] at hc
          rw [← hc.1] at hpackage
          exact .inl ⟨a, '.' :: c, hpackage, .inr ⟨c, rfl⟩, hd⟩
  · rintro (⟨a, rest, ha, hrest, hd⟩ | hd)
    · refine ⟨a, rest ++ '.' :: name.toList, by rw [ha, List.append_assoc], .inr ?_, hd⟩
      obtain rfl | ⟨b, rfl⟩ := hrest
      · exact ⟨_, rfl⟩
      · exact ⟨_, List.cons_append⟩
    · exact ⟨_, [], (List.append_nil _).symm, .inl rfl, by rwa [← htext, String.ofList_toList]⟩

namespace Screening

open Python Node

/-- The names that a from-import fetches from its module, as they are called there. -/
inductive Fetches (statement : Node) : Node → Prop
  | listed {member : Node} (hm : member ∈ statement.children) (hr : member.role = .name)
    (hk : member.kind = .dottedName) : Fetches statement member
  | renamed {named member : Node} (hn : named ∈ statement.children) (ha : named.kind = .aliasedImport)
    (hm : member ∈ named.children) (hk : member.kind = .dottedName) : Fetches statement member

/-- Whether a finding is made at a place in a statement of a program. -/
def FoundIn (d : Denylist) (root : Node) (ancestors : List Node) (statement : Node) (f : Finding) : Prop :=
  ∃ inner n, Around statement inner n ∧ f ∈ spotFindings ⟨d, Alias.ofTree root⟩ (spotOn (inner ++ ancestors) n)

variable {d : Denylist} {source : List Char} {root statement parent member path n : Node}
  {ancestors inner : List Node} {f : Finding} {c : Context}

theorem Around.append (hs : Around root ancestors statement) (h : Around statement inner n) :
    Around root (inner ++ ancestors) n := by
  induction h with
  | root => exact hs
  | child _ hn ih => exact ih.child hn

theorem Screened.error_le (h : Screened f) : Severity.error ≤ f.severity := by
  cases h with
  | module | callable | reference => exact Severity.le_refl .error
  | _ => exact Severity.le_critical .error

/-! ### Parts of from-imports -/

/-- What stands right below a from-import: no names, and no expressions. -/
theorem isImportPart_of_fromImport (hs : statement.Formed)
    (hk : statement.kind = .importFrom ∨ statement.kind = .futureImport) (hn : n ∈ statement.children) :
    n.kind.isImportPart = true := by
  have hlisted : n.IsListed → n.kind.isImportPart = true := by
    rintro ⟨-, h | h, -⟩ <;> rw [h] <;> rfl
  have hshape := hs.shape
  obtain hk | hk := hk
  all_goals rw [hk] at hshape
  · obtain ⟨module, names, hc, -, hm, hnames⟩ := hshape
    rw [hc] at hn
    obtain rfl | hn := List.mem_cons.mp hn
    · obtain h | h := hm <;> rw [h] <;> rfl
    · obtain h | ⟨-, h⟩ := hnames n hn
      · exact hlisted h
      · rw [h]
        rfl
  · exact hlisted (hshape n hn)

/-- What stands right below a part of an import: other parts, and names that are looked at with it. -/
theorem isImportPart_or_isPartOfParent (hp : parent.Formed) (hk : parent.kind.isImportPart = true)
    (hn : n ∈ parent.children) :
    n.kind.isImportPart = true ∨ n.kind = .identifier ∧ isPartOfParent parent n = true := by
  have hshape := hp.shape
  unfold Kind.isImportPart at hk
  split at hk
  case h_1 hkind =>
    rw [hkind] at hshape
    exact .inr ⟨hshape.1 n hn, by rw [isPartOfParent, hkind]⟩
  case h_2 hkind =>
    rw [hkind] at hshape
    obtain ⟨target, newName, hc, -, ht, -, hnew⟩ := hshape
    rw [hc] at hn
    obtain rfl | hn := List.mem_cons.mp hn
    · exact .inl (by rw [ht]; rfl)
    · rw [List.mem_singleton.mp hn]
      exact .inr ⟨hnew, by rw [isPartOfParent, hkind]⟩
  case h_3 hkind =>
    rw [hkind] at hshape
    exact .inl (by rw [hshape n hn]; rfl)
  case h_4 hkind =>
    rw [hkind] at hshape
    rw [hshape] at hn
    cases hn
  case h_5 => cases hk

/-- At any depth below a from-import. -/
theorem Around.isImportPart_or_isPartOfParent (hs : statement.Sound)
    (hk : statement.kind = .importFrom ∨ statement.kind = .futureImport) (h : Around statement (parent :: inner) n) :
    n.kind.isImportPart = true ∨ n.kind = .identifier ∧ isPartOfParent parent n = true := by
  generalize hpath : parent :: inner = path at h
  induction h generalizing parent inner with
  | root => cases hpath
  | @child path above n h hn ih =>
    cases hpath
    have habove := (h.sound hs).formed
    cases path with
    | nil =>
      cases h
      exact .inl (isImportPart_of_fromImport habove hk hn)
    | cons outer rest =>
      obtain hpart | ⟨hi, -⟩ := ih rfl
      · exact Screening.isImportPart_or_isPartOfParent habove hpart hn
      · have hshape := habove.shape
        rw [hi] at hshape
        rw [hshape.1] at hn
        cases hn

/-- Nothing is found below a from-import. -/
theorem spotFindings_eq_nil_of_below (hs : statement.Sound)
    (hk : statement.kind = .importFrom ∨ statement.kind = .futureImport) (h : Around statement (parent :: inner) n) :
    spotFindings c (spotOn (parent :: inner ++ ancestors) n) = [] := by
  obtain hpart | ⟨hi, hpart⟩ := h.isImportPart_or_isPartOfParent hs hk
  · have hkind : (spotOn (parent :: inner ++ ancestors) n).node.kind.isImportPart = true := hpart
    unfold spotFindings
    split
    case h_6 => rfl
    all_goals
      next h =>
        rw [h] at hkind
        cases hkind
  · rw [spotFindings, spotOn, hi]
    simp only [List.cons_append, List.head?_cons, nameFindings]
    rw [if_pos hpart]

/-! ### What a from-import is looked at for -/

theorem mem_fetched_iff (hs : statement.Sound) (hk : statement.kind = .importFrom) :
    member ∈ (importedNames statement).map fetched ↔ Fetches statement member := by
  rw [List.mem_map]
  constructor
  · rintro ⟨listed, hl, rfl⟩
    obtain ⟨hl, hrole⟩ := List.mem_filter.mp hl
    have hrole : listed.role = .name := by simpa using hrole
    obtain hlk | hlk := (isListed_of_importFrom hs.formed hk hl hrole).2.1
    · rw [fetched, hlk]
      exact .listed hl hrole hlk
    · obtain ⟨target, newName, hc, hf, -⟩ := exists_renamed (hs.child hl).formed hlk
      have hshape := (hs.child hl).formed.shape
      rw [hlk] at hshape
      obtain ⟨target', newName', hc', -, ht, -⟩ := hshape
      rw [hc] at hc'
      cases hc'
      rw [hf]
      exact .renamed hl hlk (by rw [hc]; exact List.mem_cons_self) ht
  · rintro (⟨hm, hr, hmk⟩ | ⟨hn, ha, hm, hmk⟩)
    · exact ⟨member, List.mem_filter.mpr ⟨hm, by simpa using hr⟩, by rw [fetched, hmk]; rfl⟩
    · rename_i named
      have hfits := hs.formed.fits named hn
      rw [hk, ha] at hfits
      have hrole : (Kind.isImport .importFrom && named.role = .name) = true := hfits
      exact ⟨named, List.mem_filter.mpr ⟨hn, (Bool.and_eq_true_iff.mp hrole).2⟩,
        fetched_of_renamed (hs.child hn).formed ha hm hmk⟩

theorem Fetches.sound (h : Fetches statement member) (hs : statement.Sound) :
    member.Sound ∧ member.kind = .dottedName := by
  cases h with
  | listed hm _ hk => exact ⟨hs.child hm, hk⟩
  | renamed hn _ hm hk => exact ⟨(hs.child hn).child hm, hk⟩

/-- The names of a path have no points. -/
theorem Fetches.not_mem_point {name : Node} (h : Fetches statement member) (hs : statement.Sound)
    (hc : member.children = [name]) : '.' ∉ name.text.toList := by
  obtain ⟨hm, hk⟩ := h.sound hs
  have hname : name ∈ member.children := by rw [hc]; exact List.mem_cons_self
  have hshape := hm.formed.shape
  rw [hk] at hshape
  have hword := (hm.child hname).formed.shape
  rw [hshape.1 name hname] at hword
  exact hword.2.not_mem_point

theorem Fetches.mem_preorder (h : Fetches statement member) : member ∈ statement.preorder := by
  cases h with
  | listed hm => exact mem_preorder_of_mem_children mem_preorder_self hm
  | renamed hn _ hm => exact mem_preorder_of_mem_children (mem_preorder_of_mem_children mem_preorder_self hn) hm

theorem location_of_fromImportFindings (hs : statement.Sound) (hk : statement.kind = .importFrom)
    (h : f ∈ fromImportFindings d statement) : ∃ n ∈ statement.preorder, f.location = some n.place := by
  unfold fromImportFindings at h
  split at h
  case h_1 => cases h
  case h_2 path hpath =>
    split at h
    · cases List.mem_singleton.mp h
      have hp := (of_sourceModule? hs.formed hk hpath).1
      exact ⟨path, mem_preorder_of_mem_children mem_preorder_self hp, rfl⟩
    · obtain ⟨member, hm, hf⟩ := List.mem_filterMap.mp h
      simp only at hf
      split at hf <;> cases hf
      exact ⟨member, ((mem_fetched_iff hs hk).mp hm).mem_preorder, rfl⟩

theorem exists_mem_fromImportFindings_iff (hs : statement.Sound) (hk : statement.kind = .importFrom) :
    (∃ f, f ∈ fromImportFindings d statement) ↔ ∃ path, ModulePath statement path ∧
      (d.forbidsModule path.text = true ∨
        ∃ member, Fetches statement member ∧ d.forbidsCallable (path.text ++ "." ++ member.text) = true) := by
  constructor
  · rintro ⟨f, h⟩
    unfold fromImportFindings at h
    split at h
    case h_1 => cases h
    case h_2 path hpath =>
      obtain ⟨hp, hr, hpk⟩ := of_sourceModule? hs.formed hk hpath
      refine ⟨path, .source hk hp hr hpk, ?_⟩
      split at h
      case isTrue hd => exact .inl hd
      case isFalse =>
        obtain ⟨member, hm, hf⟩ := List.mem_filterMap.mp h
        simp only at hf
        split at hf
        case isTrue hd => exact .inr ⟨member, (mem_fetched_iff hs hk).mp hm, hd⟩
        case isFalse => cases hf
  · rintro ⟨path, hpath, hd⟩
    obtain ⟨hp, hr, hpk⟩ : path ∈ statement.children ∧ path.role = .moduleName ∧ path.kind = .dottedName := by
      cases hpath with
      | listed h | renamed h => rw [hk] at h; cases h
      | source _ hp hr hpk => exact ⟨hp, hr, hpk⟩
    simp only [fromImportFindings, sourceModule?_of_mem hs.formed hk hp hr hpk]
    split
    case isTrue => exact ⟨_, List.mem_singleton_self _⟩
    case isFalse hforbids =>
      obtain ⟨member, hm, hcallable⟩ := hd.resolve_left hforbids
      exact ⟨_, List.mem_filterMap.mpr ⟨member, (mem_fetched_iff hs hk).mpr hm, if_pos hcallable⟩⟩

/-- All that is found in a from-import is found at the statement itself, and one from `__future__` is not looked at. -/
theorem foundIn_iff (hs : statement.Sound) (hk : statement.kind = .importFrom ∨ statement.kind = .futureImport) :
    FoundIn d root ancestors statement f ↔ statement.kind = .importFrom ∧ f ∈ fromImportFindings d statement := by
  constructor
  · rintro ⟨inner, n, hn, hf⟩
    cases inner with
    | nil =>
      cases hn
      obtain hk | hk := hk
      all_goals rw [spotFindings, spotOn, hk] at hf
      · exact ⟨hk, hf⟩
      · cases hf
    | cons parent inner =>
      rw [spotFindings_eq_nil_of_below hs hk hn] at hf
      cases hf
  · rintro ⟨hk, hf⟩
    exact ⟨[], statement, .root, by rw [spotFindings, spotOn, hk]; exact hf⟩

/-- What is found in a from-import of a program is an error at one of its places. Something is found in it exactly when
its package is forbidden, or a fetched name that is a forbidden callable; a fetched module that is forbidden by its own
name is not, though it is forbidden as much as one whose package is. -/
theorem exists_foundIn_iff (d : Denylist) (limits : PrevalidationConfig) (hread : Program.read source = .ok root)
    (ha : Around root ancestors statement) (hk : statement.kind = .importFrom ∨ statement.kind = .futureImport) :
    (∀ f, FoundIn d root ancestors statement f → f ∈ Prevalidation.scan d limits source ∧ Severity.error ≤ f.severity ∧
      ∃ n ∈ statement.preorder, f.location = some n.place) ∧
    ((∃ f, FoundIn d root ancestors statement f) ↔ ∃ path, ModulePath statement path ∧
      (d.forbidsModule path.text = true ∨
        ∃ member, Fetches statement member ∧ d.forbidsCallable (path.text ++ "." ++ member.text) = true)) ∧
    ∀ path member name, ModulePath statement path → path.text = dotted path.children → Fetches statement member →
      member.children = [name] →
      (d.forbidsModule (dotted (path.children ++ [name])) = true ↔
        d.forbidsModule path.text = true ∨ d.modules.contains (dotted (path.children ++ [name])) = true) := by
  have hs : statement.Sound := ha.sound (sound_of_read hread).1
  refine ⟨fun f hf => ⟨?_, ?_, ?_⟩, ?_, fun path member name hpath htext hm hname => ?_⟩
  · obtain ⟨inner, n, hn, hf⟩ := hf
    exact mem_scan hread (ha.append hn) hf
  · exact (screened_of_fromImportFindings ((foundIn_iff hs hk).mp hf).2).error_le
  · obtain ⟨hk, hf⟩ := (foundIn_iff hs hk).mp hf
    exact location_of_fromImportFindings hs hk hf
  · simp only [foundIn_iff hs hk]
    obtain hk | hk := hk
    · simp only [hk, true_and]
      exact exists_mem_fromImportFindings_iff hs hk
    · constructor
      · rintro ⟨f, hfrom, -⟩
        rw [hk] at hfrom
        cases hfrom
      · rintro ⟨path, hpath, -⟩
        cases hpath with
        | listed h | renamed h | source h => rw [hk] at h; cases h
  · obtain ⟨hpsound, hpk⟩ := hpath.sound hs
    rw [dotted_concat (children_ne_nil hpsound hpk), ← htext]
    exact Denylist.forbidsModule_member (hm.not_mem_point hs hname)

/-- A forbidden module that is fetched from a package that is not forbidden. -/
theorem exists_foundIn_iff_submodule :
    let d : Denylist := ⟨.ofList ["os.path"], .empty, .empty⟩
    let member : Node := .mk .dottedName .name ⟨1, 16⟩ "path" [.leaf .identifier ⟨1, 16⟩ "path"]
    let package : Node := .mk .dottedName .moduleName ⟨1, 6⟩ "os" [.leaf .identifier ⟨1, 6⟩ "os"]
    let statement : Node := .branch .importFrom ⟨1, 1⟩ [package, member]
    let root : Node := .branch .module ⟨1, 1⟩ [statement]
    Program.read "from os import path\n".toList = .ok root ∧ d.forbidsModule "os.path" = true ∧
      (¬ ∃ f, FoundIn d root [root] statement f) ∧ Prevalidation.scan d {} "from os import path\n".toList = [] := by
  intro d member package statement root
  have hread : (Program.read "from os import path\n".toList).toOption = some root := by decide +kernel
  have hpackage : ModulePath statement package := .source rfl List.mem_cons_self rfl rfl
  have hmember : Fetches statement member := .listed (by decide) rfl rfl
  have hscan : Prevalidation.scan d {} "from os import path\n".toList = [] := by decide +kernel
  obtain ⟨hreported, -, hmodule⟩ := exists_foundIn_iff d {} (Program.read_eq_ok hread)
    (.child .root (List.mem_singleton_self statement)) (.inl rfl)
  have hd : d.forbidsModule "os.path" = true :=
    (hmodule package member _ hpackage (by decide) hmember rfl).mpr (.inr (by decide +kernel))
  refine ⟨Program.read_eq_ok hread, hd, ?_, hscan⟩
  rintro ⟨f, hf⟩
  have hmem := (hreported f hf).1
  rw [hscan] at hmem
  cases hmem

end Screening

end Vetting
