import Vetting.Proofs.Python.Statements
import Vetting.Proofs.Screening.Spots

/-!
# Forbidden modules

An import is found when the module that it names, or a package that holds this module, is forbidden. The walk
compares the source text of the module path with the denylist (`Denylist.forbidsModule_iff`); this is the path of
names as long as nothing stands around the points (`exists_forbiddenModule`).
-/

namespace Vetting

namespace Denylist

variable {d : Denylist}

theorem mem_pathPrefixes {p text seen : List Char} :
    p ∈ pathPrefixes seen text ↔ ∃ a b, text = a ++ '.' :: b ∧ p = seen.reverse ++ a := by
  induction text generalizing seen with
  | nil => simp [pathPrefixes]
  | cons c rest ih =>
    have hrest : p ∈ pathPrefixes (c :: seen) rest ↔
        ∃ a b, c :: rest = (c :: a) ++ '.' :: b ∧ p = seen.reverse ++ c :: a := by
      simp [ih]
    rw [pathPrefixes]
    split
    case isTrue hc =>
      rw [List.mem_cons, hrest]
      constructor
      · rintro (rfl | ⟨a, b, h, rfl⟩)
        · exact ⟨[], rest, by rw [hc, List.nil_append], by rw [List.append_nil]⟩
        · exact ⟨c :: a, b, h, rfl⟩
      · rintro ⟨a, b, h, rfl⟩
        cases a with
        | nil => exact .inl (List.append_nil _)
        | cons x a =>
          rw [List.cons_append, List.cons.injEq] at h
          rw [← h.1, h.2]
          exact .inr ⟨a, b, rfl, rfl⟩
    case isFalse hc =>
      rw [hrest]
      constructor
      · rintro ⟨a, b, h, rfl⟩
        exact ⟨c :: a, b, h, rfl⟩
      · rintro ⟨a, b, h, rfl⟩
        cases a with
        | nil => exact absurd (List.cons.inj h).1 hc
        | cons x a =>
          rw [List.cons_append, List.cons.injEq] at h
          rw [← h.1, h.2]
          exact ⟨a, b, rfl, rfl⟩

/-- A module is forbidden when its name is, or what stands before a point of its name. -/
theorem forbidsModule_iff {name : String} :
    d.forbidsModule name = true ↔ ∃ a rest, name.toList = a ++ rest ∧ (rest = [] ∨ ∃ b, rest = '.' :: b) ∧
      d.modules.contains (String.ofList a) = true := by
  simp only [forbidsModule, Bool.or_eq_true, List.any_eq_true, mem_pathPrefixes]
  constructor
  · rintro (h | ⟨p, ⟨a, b, hab, rfl⟩, h⟩)
    · exact ⟨name.toList, [], (List.append_nil _).symm, .inl rfl, by rwa [String.ofList_toList]⟩
    · exact ⟨_, '.' :: b, hab, .inr ⟨b, rfl⟩, h⟩
  · rintro ⟨a, rest, ha, rfl | ⟨b, rfl⟩, h⟩
    · rw [List.append_nil] at ha
      rw [← ha, String.ofList_toList] at h
      exact .inl h
    · exact .inr ⟨a, ⟨a, b, ha, rfl⟩, h⟩

end Denylist

namespace Screening

open Python Node

/-! ### Module paths -/

/-- The modules that a statement imports or imports from, by their paths. -/
inductive ModulePath (statement : Node) : Node → Prop
  | listed {path : Node} (hs : statement.kind = .importStatement) (hp : path ∈ statement.children)
    (hk : path.kind = .dottedName) : ModulePath statement path
  | renamed {named path : Node} (hs : statement.kind = .importStatement) (hn : named ∈ statement.children)
    (ha : named.kind = .aliasedImport) (hp : path ∈ named.children) (hk : path.kind = .dottedName) :
    ModulePath statement path
  | source {path : Node} (hs : statement.kind = .importFrom) (hp : path ∈ statement.children)
    (hr : path.role = .moduleName) (hk : path.kind = .dottedName) : ModulePath statement path

/-- The dotted name that names make. -/
def dotted : List Node → String
  | [] => ""
  | n :: rest => n.text ++ String.join (rest.map fun m => "." ++ m.text)

variable {d : Denylist} {source : List Char} {root statement path : Node}

theorem toList_dotted {first : Node} {joints : List Joint} (h : ∀ j ∈ joints, j.IsTight) :
    (dotted (first :: joints.map Joint.name)).toList = first.text.toList ++ joints.flatMap Joint.text := by
  have hjoint : ∀ j ∈ joints, ("." ++ j.name.text).toList = j.text := by
    intro j hj
    obtain ⟨hbefore, hbehind⟩ := h j hj
    rw [Joint.text, hbefore, hbehind, String.toList_append]
    rfl
  simp only [dotted, String.toList_append, String.toList_join, List.map_map, List.flatMap]
  congr 2
  exact List.map_congr_left hjoint

/-- What stands around the points of a path makes its text longer than the dotted name. -/
theorem length_dotted_le (first : Node) (joints : List Joint) :
    (dotted (first :: joints.map Joint.name)).length ≤ first.text.length + (joints.flatMap Joint.text).length ∧
      ((dotted (first :: joints.map Joint.name)).length = first.text.length + (joints.flatMap Joint.text).length →
        ∀ j ∈ joints, j.IsTight) := by
  induction joints with
  | nil => exact ⟨by simp [dotted], fun _ => List.forall_mem_nil _⟩
  | cons j rest ih =>
    have hcons : (dotted (first :: (j :: rest).map Joint.name)).length
        = (dotted (first :: rest.map Joint.name)).length + 1 + j.name.text.length := by
      simp only [dotted, List.map_cons, String.join_cons, String.length_append]
      have hpoint : ".".length = 1 := rfl
      omega
    have htext : j.text.length = j.before.length + 1 + j.behind.length + j.name.text.length := by
      simp only [Joint.text, List.length_append, List.length_cons, String.length_toList]
      omega
    rw [hcons, List.flatMap_cons, List.length_append, htext]
    refine ⟨by omega, fun h => List.forall_mem_cons.mpr ⟨⟨?_, ?_⟩, ih.2 (by omega)⟩⟩
    · exact List.length_eq_zero_iff.mp (by omega)
    · exact List.length_eq_zero_iff.mp (by omega)

/-- Nothing stands around the points of a path that is written as its dotted name. -/
theorem isTight_of_text {text : String} {names : List Node} {first : Node} {joints : List Joint}
    (hlaid : LaidOut text names first joints) (htext : text = dotted names) : ∀ j ∈ joints, j.IsTight := by
  refine (length_dotted_le first joints).2 ?_
  rw [← hlaid.names, ← htext, ← String.length_toList, hlaid.text, List.length_append, String.length_toList]

/-- What is written of a path is forbidden if the first of its names make a forbidden module, and nothing stands
around the points as far as they go. -/
theorem forbidsModule_of_dotted {text : String} {names : List Node} {first : Node} {joints : List Joint}
    (hlaid : LaidOut text names first joints) (k : Nat) (htight : ∀ j ∈ joints.take k, j.IsTight)
    (hnext : ∀ j ∈ joints[k]?, j.before = []) (hd : d.modules.contains (dotted (names.take (k + 1))) = true) :
    d.forbidsModule text = true := by
  rw [hlaid.names, List.take_succ_cons, ← List.map_take] at hd
  have htext : text.toList = (dotted (first :: (joints.take k).map Joint.name)).toList
      ++ (joints.drop k).flatMap Joint.text := by
    rw [toList_dotted htight, List.append_assoc, ← List.flatMap_append, List.take_append_drop, hlaid.text]
  have hrest : (joints.drop k).flatMap Joint.text = [] ∨ ∃ b, (joints.drop k).flatMap Joint.text = '.' :: b := by
    cases hdrop : joints.drop k with
    | nil => exact .inl rfl
    | cons j rest =>
      have hj : joints[k]? = some j := by rw [← List.head?_drop, hdrop, List.head?_cons]
      rw [List.flatMap_cons, Joint.text, hnext j hj]
      exact .inr ⟨_, rfl⟩
  refine Denylist.forbidsModule_iff.mpr ⟨_, _, htext, hrest, ?_⟩
  rw [String.ofList_toList]
  exact hd

/-- What an import lists under a new name. -/
theorem fetched_of_renamed {named : Node} (hf : named.Formed) (ha : named.kind = .aliasedImport)
    (hp : path ∈ named.children) (hk : path.kind = .dottedName) : fetched named = path := by
  have hs := hf.shape
  rw [ha] at hs
  obtain ⟨target, newName, hc, hr, -, -, hn⟩ := hs
  have hpath : path = target := by
    rw [hc] at hp
    obtain rfl | hp := List.mem_cons.mp hp
    · rfl
    · rw [List.mem_singleton.mp hp, hn] at hk
      cases hk
  rw [fetched, if_pos ha, child?, hc, List.find?_cons_of_pos (by simpa using hr), hpath]
  rfl

/-- The module of a from-import. -/
theorem sourceModule?_of_mem (hf : statement.Formed) (hs : statement.kind = .importFrom)
    (hp : path ∈ statement.children) (hr : path.role = .moduleName) (hk : path.kind = .dottedName) :
    sourceModule? statement = some path := by
  have hshape := hf.shape
  rw [hs] at hshape
  obtain ⟨module, names, hc, hm, -, hnames⟩ := hshape
  have hpath : path = module := by
    rw [hc] at hp
    obtain rfl | hp := List.mem_cons.mp hp
    · rfl
    · obtain h | h := hnames path hp
      · rw [h.1] at hr
        cases hr
      · rw [h.1] at hr
        cases hr
  rw [sourceModule?, child?, hc, List.find?_cons_of_pos (by simpa using hm), ← hpath]
  simp [hk]

/-- What the walk finds at a statement tells of each of its module paths that is forbidden. -/
theorem ModulePath.mem_spotFindings {c : Context} {s : Spot} (hp : ModulePath s.node path) (hs : s.node.Sound)
    (hd : c.denylist.forbidsModule path.text = true) :
    ∃ message, forbiddenModule message path ∈ spotFindings c s := by
  have hlisted : ∀ n ∈ s.node.children, s.node.kind = .importStatement → fetched n = path →
      ∃ message, forbiddenModule message path ∈ spotFindings c s := by
    intro n hn hk hfetched
    have hshape := hs.formed.shape
    rw [hk] at hshape
    have hname : n ∈ importedNames s.node := List.mem_filter.mpr ⟨hn, by simpa using (hshape n hn).1⟩
    rw [spotFindings, hk]
    exact ⟨_, List.mem_filterMap.mpr ⟨path, List.mem_map.mpr ⟨n, hname, hfetched⟩, if_pos hd⟩⟩
  cases hp with
  | listed hk hp hpk => exact hlisted path hp hk (by rw [fetched, hpk]; rfl)
  | renamed hk hn ha hp hpk => exact hlisted _ hn hk (fetched_of_renamed (hs.child hn).formed ha hp hpk)
  | source hk hp hr hpk =>
    rw [spotFindings, hk]
    simp only [fromImportFindings, sourceModule?_of_mem hs.formed hk hp hr hpk, if_pos hd]
    exact ⟨_, List.mem_singleton_self _⟩

theorem ModulePath.sound (hp : ModulePath statement path) (hs : statement.Sound) :
    path.Sound ∧ path.kind = .dottedName := by
  cases hp with
  | listed _ hp hk => exact ⟨hs.child hp, hk⟩
  | renamed _ hn _ hp hk => exact ⟨(hs.child hn).child hp, hk⟩
  | source _ hp _ hk => exact ⟨hs.child hp, hk⟩

/-- Every module path of a program is found that a forbidden module or package starts, in so far as nothing stands
around its points. -/
theorem exists_forbiddenModule (d : Denylist) (limits : PrevalidationConfig)
    (hread : Program.read source = .ok root) (hs : statement ∈ root.preorder) (hp : ModulePath statement path) :
    (∀ c ∈ path.children, c.kind = .identifier) ∧
      ∃ first joints, LaidOut path.text path.children first joints ∧
        ∀ k, (∀ j ∈ joints.take k, j.IsTight) → (∀ j ∈ joints[k]?, j.before = []) →
          d.modules.contains (dotted (path.children.take (k + 1))) = true →
            ∃ f ∈ Prevalidation.scan d limits source, f.severity = .error ∧
              f.code = some "forbidden-module" ∧ f.location = some path.place := by
  obtain ⟨ancestors, ha⟩ := exists_around hs
  have hsound : statement.Sound := ha.sound (sound_of_read hread).1
  obtain ⟨hpath, hkind⟩ := hp.sound hsound
  have hshape := hpath.formed.shape
  rw [hkind] at hshape
  obtain ⟨hnames, first, joints, hlaid⟩ := hshape
  refine ⟨hnames, first, joints, hlaid, fun k htight hnext hd => ?_⟩
  obtain ⟨message, hf⟩ := ModulePath.mem_spotFindings (c := ⟨d, Alias.ofTree root⟩)
    (s := spotOn ancestors statement) hp hsound (forbidsModule_of_dotted hlaid k htight hnext hd)
  exact ⟨_, mem_scan hread ha hf, rfl, rfl, rfl⟩

/-- A module of a forbidden package. -/
theorem exists_forbiddenModule_submodule :
    ∃ f ∈ Prevalidation.scan .standard {} "import os.path\n".toList, f.severity = .error ∧
      f.code = some "forbidden-module" ∧ f.location = some ⟨1, 8⟩ := by
  let path : Node := .mk .dottedName .name ⟨1, 8⟩ "os.path"
    [.leaf .identifier ⟨1, 8⟩ "os", .leaf .identifier ⟨1, 11⟩ "path"]
  let statement : Node := .branch .importStatement ⟨1, 1⟩ [path]
  have hread : (Program.read "import os.path\n".toList).toOption = some (.branch .module ⟨1, 1⟩ [statement]) := by
    decide +kernel
  have hs : statement ∈ (Node.branch .module ⟨1, 1⟩ [statement]).preorder :=
    mem_preorder_of_mem_children mem_preorder_self List.mem_cons_self
  obtain ⟨-, first, joints, hlaid, h⟩ := exists_forbiddenModule .standard {} (Program.read_eq_ok hread) hs
    (.listed rfl List.mem_cons_self rfl)
  refine h 0 (List.forall_mem_nil _) (fun j hj => ?_) (by decide +kernel)
  exact (isTight_of_text hlaid (by decide +kernel) j (List.mem_of_getElem? hj)).1

end Screening

end Vetting
