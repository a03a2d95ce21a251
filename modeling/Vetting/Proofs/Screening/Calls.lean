import Vetting.Proofs.Screening.Imports

/-!
# Calls through names of imports

`Binds` says which names an import gives to modules and their members, and what they stand for. Where several
imports bind one name, the binding that `Prevails` is that of the first statement, and in it that of the name listed
last: it is the one that a callee is seen through (`find?_ofTree`). A call is found when its callee as it is written,
or as it is seen through the binding that prevails, is forbidden (`exists_forbiddenCallable`).
-/

namespace Vetting.Screening

open Python Node

/-! ### Dotted names -/

/-- The names that a dotted expression is made of, in order. -/
inductive IsDotted : Node → List Node → Prop
  | name {n : Node} (hk : n.kind = .identifier) : IsDotted n [n]
  | member {n object f : Node} {names : List Node} (hk : n.kind = .attribute) (hc : n.children = [object, f])
    (ho : IsDotted object names) : IsDotted n (names ++ [f])

variable {root statement listed path call callee first n : Node} {names rest target : List Node} {name : String}

theorem IsDotted.ne_nil (h : IsDotted n names) : names ≠ [] := by
  cases h <;> simp

/-- What stands behind the first name of a dotted name. -/
def trailing (rest : List Node) : String := String.join (rest.map fun m => "." ++ m.text)

theorem dotted_cons : dotted (first :: rest) = first.text ++ trailing rest := rfl

theorem trailing_append (xs ys : List Node) : trailing (xs ++ ys) = trailing xs ++ trailing ys := by
  apply String.ext
  simp [trailing, String.toList_join]

theorem dotted_append {more : List Node} (h : names ≠ []) :
    dotted (names ++ more) = dotted names ++ trailing more := by
  cases names with
  | nil => exact absurd rfl h
  | cons m rest => rw [List.cons_append, dotted_cons, dotted_cons, trailing_append, String.append_assoc]

theorem dotted_concat {f : Node} (h : names ≠ []) : dotted (names ++ [f]) = dotted names ++ "." ++ f.text := by
  rw [dotted_append h, String.append_assoc]
  simp [trailing, String.join]

theorem IsDotted.dottedName?_eq (h : IsDotted n names) : dottedName? n = some (dotted names) := by
  induction h with
  | @name n hk =>
    cases n with
    | mk k r p t c =>
      cases hk
      simp [dottedName?, dotted]
  | @member n object f names hk hc ho ih =>
    cases n with
    | mk k r p t c =>
      cases hk
      cases hc
      simp [dottedName?, ih, dotted_concat ho.ne_nil]

/-- The first name of a dotted name is in the tree too. -/
theorem IsDotted.sound_head (h : IsDotted n (first :: rest)) (hn : n.Sound) :
    first.Sound ∧ first.kind = .identifier := by
  generalize hnames : first :: rest = names at h
  induction h generalizing rest with
  | name hk =>
    cases hnames
    exact ⟨hn, hk⟩
  | @member n object f names hk hc ho ih =>
    have hobject : object.Sound := hn.child (by rw [hc]; exact List.mem_cons_self)
    cases names with
    | nil => exact absurd rfl ho.ne_nil
    | cons m names =>
      cases hnames
      exact ih hobject rfl

/-! ### Bindings -/

/-- What an import binds by one of the names that it lists: the name that is bound, the names that it stands for, and
how these are written. In a program `member` is a single name. -/
inductive Binds (statement listed : Node) : String → List Node → String → Prop
  | module {path newName : Node} (hs : statement.kind = .importStatement) (hl : listed ∈ statement.children)
    (hk : listed.kind = .aliasedImport) (hc : listed.children = [path, newName]) :
    Binds statement listed newName.text path.children path.text
  | member {path f : Node} (hs : statement.kind = .importFrom) (hp : path ∈ statement.children)
    (hr : path.role = .moduleName) (hpk : path.kind = .dottedName) (hl : listed ∈ statement.children)
    (hn : listed.role = .name) (hk : listed.kind = .dottedName) (hc : listed.children = [f]) :
    Binds statement listed f.text (path.children ++ [f]) (path.text ++ "." ++ listed.text)
  | renamedMember {path member newName : Node} (hs : statement.kind = .importFrom) (hp : path ∈ statement.children)
    (hr : path.role = .moduleName) (hpk : path.kind = .dottedName) (hl : listed ∈ statement.children)
    (hk : listed.kind = .aliasedImport) (hc : listed.children = [member, newName]) :
    Binds statement listed newName.text (path.children ++ member.children) (path.text ++ "." ++ member.text)

/-- Whether, of all that bind a name, a statement is the first and what it lists there the last in it. -/
structure Prevails (root statement listed : Node) (name : String) : Prop where
  first : ∃ before after, root.preorder = before ++ statement :: after ∧
    ∀ s ∈ before, ∀ n target written, ¬ Binds s n name target written
  last : ∃ before after, statement.children = before ++ listed :: after ∧
    ∀ n ∈ after, ∀ target written, ¬ Binds statement n name target written

/-- A path of one name is written as that name. -/
theorem text_of_singleton {f : Node} (hp : path.Sound) (hk : path.kind = .dottedName) (hc : path.children = [f]) :
    path.text = f.text := by
  have hs := hp.formed.shape
  rw [hk, hc] at hs
  obtain ⟨-, first, joints, hnames, htext⟩ := hs
  cases joints with
  | cons => cases hnames
  | nil =>
    cases hnames
    apply String.ext
    simpa using htext

/-- A path whose text has no point is one name. -/
theorem exists_singleton (hp : path.Sound) (hk : path.kind = .dottedName) (ht : '.' ∉ path.text.toList) :
    ∃ f, path.children = [f] := by
  have hs := hp.formed.shape
  rw [hk] at hs
  obtain ⟨-, first, joints, hnames, htext⟩ := hs
  cases joints with
  | nil => exact ⟨first, hnames⟩
  | cons j rest =>
    refine absurd ?_ ht
    simp [htext, Joint.text]

/-- What an import lists under a new name. -/
theorem exists_renamed (hl : listed.Formed) (hk : listed.kind = .aliasedImport) :
    ∃ path newName, listed.children = [path, newName] ∧ fetched listed = path ∧
      listed.child? .newName = some newName := by
  have hs := hl.shape
  rw [hk] at hs
  obtain ⟨path, newName, hc, hr, -, hn, -⟩ := hs
  refine ⟨path, newName, hc, ?_, ?_⟩
  · rw [fetched, if_pos hk, child?, hc, List.find?_cons_of_pos (by simpa using hr), Option.getD_some]
  · rw [child?, hc, List.find?_cons_of_neg (by simp [hr]), List.find?_cons_of_pos (by simpa using hn)]

/-- A path that an import lists has no new name. -/
theorem child?_newName_eq_none (hl : listed.IsListed) (hk : listed.kind = .dottedName) :
    listed.child? .newName = none := by
  rw [child?, List.find?_eq_none]
  intro c hc
  simp [hl.2.2 hk c hc]

/-- What a from-import lists beside the module. -/
theorem isListed_of_importFrom (hs : statement.Formed) (hk : statement.kind = .importFrom)
    (hl : listed ∈ statement.children) (hr : listed.role = .name) : listed.IsListed := by
  have hshape := hs.shape
  rw [hk] at hshape
  obtain ⟨source, names, hc, hsource, -, hnames⟩ := hshape
  rw [hc] at hl
  obtain rfl | hl := List.mem_cons.mp hl
  · rw [hsource] at hr
    cases hr
  · obtain h | ⟨hpart, -⟩ := hnames listed hl
    · exact h
    · rw [hpart] at hr
      cases hr

/-- The module of a from-import that names one from the top is a path. -/
theorem of_sourceModule? (hs : statement.Formed) (hk : statement.kind = .importFrom)
    (h : sourceModule? statement = some path) :
    path ∈ statement.children ∧ path.role = .moduleName ∧ path.kind = .dottedName := by
  obtain ⟨hchild, hrelative⟩ := Option.filter_eq_some_iff.mp h
  have hmem := List.mem_of_find?_eq_some hchild
  have hrole : path.role = .moduleName := by simpa using List.find?_some hchild
  refine ⟨hmem, hrole, ?_⟩
  have hshape := hs.shape
  rw [hk] at hshape
  obtain ⟨source, names, hc, -, hsource, hnames⟩ := hshape
  rw [hc] at hmem
  obtain rfl | hmem := List.mem_cons.mp hmem
  · exact hsource.resolve_right (by simpa using hrelative)
  · obtain h | ⟨hpart, -⟩ := hnames path hmem
    · rw [h.1] at hrole
      cases hrole
    · rw [hpart] at hrole
      cases hrole

namespace Alias

/-- What is recorded of one listed name. -/
def ofListed? (statement listed : Node) : Option Alias :=
  match statement.kind with
  | .importStatement => ofImported listed
  | .importFrom => (sourceModule? statement).map fun module => ofMember module listed
  | _ => none

theorem ofStatement_eq : ofStatement statement = (importedNames statement).filterMap (ofListed? statement) := by
  unfold ofStatement
  split
  case h_1 hk =>
    have h : ofListed? statement = ofImported := by
      funext n
      simp only [ofListed?, hk]
    rw [h]
  case h_2 hk =>
    have h : ofListed? statement = fun n => (sourceModule? statement).map fun module => ofMember module n := by
      funext n
      simp only [ofListed?, hk]
    rw [h]
    cases sourceModule? statement <;> simp
  case h_3 hs hf =>
    have h : ofListed? statement = fun _ => none := by
      funext n
      unfold ofListed?
      split
      · exact absurd ‹_› hs
      · exact absurd ‹_› hf
      · rfl
    simp [h]

theorem ofListed?_of_binds {written : String} (h : Binds statement listed name target written)
    (hs : statement.Sound) : ofListed? statement listed = some ⟨name, written⟩ := by
  cases h with
  | module hk hl ha hc =>
    obtain ⟨path, newName, hc', hf, hn⟩ := exists_renamed (hs.child hl).formed ha
    rw [hc] at hc'
    cases hc'
    simp only [ofListed?, hk, ofImported, if_pos ha, hn, hf, Option.map_some]
  | member hk hp hr hpk hl hn hlk hc =>
    have hnone := child?_newName_eq_none (isListed_of_importFrom hs.formed hk hl hn) hlk
    have hfetched : fetched listed = listed := by rw [fetched, hlk]; rfl
    simp only [ofListed?, hk, sourceModule?_of_mem hs.formed hk hp hr hpk, Option.map_some, ofMember, hnone, hfetched,
      Option.getD_none, text_of_singleton (hs.child hl) hlk hc]
  | renamedMember hk hp hr hpk hl ha hc =>
    obtain ⟨member, newName, hc', hf, hn⟩ := exists_renamed (hs.child hl).formed ha
    rw [hc] at hc'
    cases hc'
    simp only [ofListed?, hk, sourceModule?_of_mem hs.formed hk hp hr hpk, Option.map_some, ofMember, hn, hf,
      Option.getD_some]

theorem exists_binds {a : Alias} (h : ofListed? statement listed = some a) (hs : statement.Sound)
    (hl : listed ∈ importedNames statement) (ha : '.' ∉ a.name.toList) :
    ∃ target, Binds statement listed a.name target a.target := by
  obtain ⟨hl, hrole⟩ := List.mem_filter.mp hl
  have hrole : listed.role = .name := by simpa using hrole
  unfold ofListed? at h
  split at h
  case h_1 hk =>
    unfold ofImported at h
    split at h
    case isTrue hlk =>
      obtain ⟨path, newName, hc, hf, hn⟩ := exists_renamed (hs.child hl).formed hlk
      rw [hn, hf] at h
      cases h
      exact ⟨_, .module hk hl hlk hc⟩
    case isFalse => cases h
  case h_2 hk =>
    obtain ⟨path, hpath, rfl⟩ := Option.map_eq_some_iff.mp h
    obtain ⟨hp, hr, hpk⟩ := of_sourceModule? hs.formed hk hpath
    have hlisted := isListed_of_importFrom hs.formed hk hl hrole
    obtain hlk | hlk := hlisted.2.1
    · have hnone := child?_newName_eq_none hlisted hlk
      have hfetched : fetched listed = listed := by rw [fetched, hlk]; rfl
      simp only [ofMember, hnone, hfetched, Option.getD_none] at ha ⊢
      obtain ⟨f, hf⟩ := exists_singleton (hs.child hl) hlk ha
      have hb : Binds statement listed f.text (path.children ++ [f]) (path.text ++ "." ++ listed.text) :=
        .member hk hp hr hpk hl hrole hlk hf
      rw [← text_of_singleton (hs.child hl) hlk hf] at hb
      exact ⟨_, hb⟩
    · obtain ⟨member, newName, hc, hf, hn⟩ := exists_renamed (hs.child hl).formed hlk
      simp only [ofMember, hn, hf, Option.getD_some]
      exact ⟨_, .renamedMember hk hp hr hpk hl hlk hc⟩
  case h_3 => cases h

end Alias

theorem Binds.kind_eq {written : String} (h : Binds statement listed name target written) :
    statement.kind = .importStatement ∨ statement.kind = .importFrom := by
  cases h with
  | module hk => exact .inl hk
  | member hk | renamedMember hk => exact .inr hk

theorem children_ne_nil (hp : path.Sound) (hk : path.kind = .dottedName) : path.children ≠ [] := by
  have hs := hp.formed.shape
  rw [hk] at hs
  obtain ⟨-, first, joints, hnames, -⟩ := hs
  rw [hnames]
  exact List.cons_ne_nil _ _

theorem Binds.target_ne_nil {written : String} (h : Binds statement listed name target written)
    (hs : statement.Sound) : target ≠ [] := by
  cases h with
  | @module path newName _ hl ha hc =>
    have hlisted := hs.child hl
    have hshape := hlisted.formed.shape
    rw [ha] at hshape
    obtain ⟨target, _, hchildren, -, hk, -⟩ := hshape
    rw [hc] at hchildren
    cases hchildren
    exact children_ne_nil (hlisted.child (by rw [hc]; exact List.mem_cons_self)) hk
  | member => exact List.append_ne_nil_of_right_ne_nil _ (List.cons_ne_nil _ _)
  | renamedMember _ hp _ hpk => exact List.append_ne_nil_of_left_ne_nil (children_ne_nil (hs.child hp) hpk) _

theorem Binds.role_eq {written : String} (h : Binds statement listed name target written) (hs : statement.Formed) :
    listed.role = .name := by
  cases h with
  | module hk hl =>
    have hshape := hs.shape
    rw [hk] at hshape
    exact (hshape listed hl).1
  | member _ _ _ _ _ hn => exact hn
  | renamedMember hk _ _ _ hl ha =>
    have hfits := hs.fits listed hl
    rw [hk, ha] at hfits
    have hrole : (Kind.isImport .importFrom && listed.role = .name) = true := hfits
    exact of_decide_eq_true (Bool.and_eq_true_iff.mp hrole).2

/-! ### The binding that prevails -/

/-- Statements that do not bind a name leave no record of it. -/
theorem find?_eq_none_of_not_binds {ns : List Node} (hs : statement.Sound) (hn : '.' ∉ name.toList)
    (hns : ∀ n ∈ ns, n ∈ importedNames statement)
    (h : ∀ n ∈ ns, ∀ target written, ¬ Binds statement n name target written) :
    (ns.filterMap (Alias.ofListed? statement)).find? (·.name = name) = none := by
  rw [List.find?_eq_none]
  intro a ha hname
  obtain ⟨n, hmem, hlisted⟩ := List.mem_filterMap.mp ha
  have hname : a.name = name := by simpa using hname
  obtain ⟨target, hb⟩ := Alias.exists_binds hlisted hs (hns n hmem) (hname ▸ hn)
  exact h n hmem target a.target (hname ▸ hb)

/-- Of all that is recorded of a name, the first is the binding that prevails. -/
theorem find?_ofTree {written : String} (hroot : root.Sound) (hn : '.' ∉ name.toList)
    (hb : Binds statement listed name target written) (hp : Prevails root statement listed name) :
    (Alias.ofTree root).find? (·.name = name) = some ⟨name, written⟩ := by
  obtain ⟨before, after, hpre, hbefore⟩ := hp.first
  obtain ⟨left, right, hchildren, hright⟩ := hp.last
  have hsound : ∀ s ∈ root.preorder, s.Sound := fun s hs => by
    obtain ⟨path, ha⟩ := exists_around hs
    exact ha.sound hroot
  have hstatement : statement.Sound := hsound statement (by simp [hpre])
  -- no statement before has recorded the name
  have hearlier : (before.flatMap fun s => (Alias.ofStatement s).reverse).find? (·.name = name) = none := by
    rw [List.find?_eq_none]
    intro a ha
    obtain ⟨s, hs, ha⟩ := List.mem_flatMap.mp ha
    rw [List.mem_reverse, Alias.ofStatement_eq] at ha
    have hsome := find?_eq_none_of_not_binds (hsound s (by simp [hpre, hs])) hn (fun n hn => hn)
      fun n _ => hbefore s hs n
    exact List.find?_eq_none.mp hsome a ha
  -- in the statement itself the names are recorded from the last to the first
  have hlisted : listed.role = .name := hb.role_eq hstatement.formed
  have hnames : importedNames statement
      = left.filter (·.role = .name) ++ listed :: right.filter (·.role = .name) := by
    simp [importedNames, childrenAs, hchildren, hlisted]
  have hlater :
      ((right.filter (·.role = .name)).filterMap (Alias.ofListed? statement)).find? (·.name = name) = none :=
    find?_eq_none_of_not_binds hstatement hn (fun n hmem => by simp [hnames, List.mem_filter.mp hmem])
      fun n hmem => hright n (List.mem_filter.mp hmem).1
  have hrecorded : (Alias.ofStatement statement).reverse.find? (·.name = name) = some ⟨name, written⟩ := by
    rw [Alias.ofStatement_eq, hnames, List.filterMap_append,
      List.filterMap_cons_some (Alias.ofListed?_of_binds hb hstatement)]
    simp only [List.reverse_append, List.reverse_cons, List.append_assoc, List.find?_append]
    rw [List.find?_eq_none.mpr, Option.none_or]
    · simp
    · intro a ha
      exact List.find?_eq_none.mp hlater a (List.mem_reverse.mp ha)
  rw [Alias.ofTree, hpre, List.flatMap_append, List.flatMap_cons, List.find?_append, List.find?_append, hearlier,
    hrecorded]
  rfl

/-! ### Callees -/

/-- The first name of a dotted name, and what stands behind it. -/
theorem split_dotted (rest : List Node) (h : '.' ∉ first.text.toList) :
    (dotted (first :: rest)).toList.takeWhile (· ≠ '.') = first.text.toList ∧
      (dotted (first :: rest)).toList.dropWhile (· ≠ '.') = (trailing rest).toList := by
  have hword : ∀ c ∈ first.text.toList, (decide (c ≠ '.')) = true := by
    intro c hc
    rw [decide_eq_true_eq]
    rintro rfl
    exact h hc
  rw [dotted_cons, String.toList_append, List.takeWhile_append_of_pos hword, List.dropWhile_append_of_pos hword]
  cases rest with
  | nil => simp [trailing]
  | cons m rest => simp [trailing, String.toList_join]

/-- A dotted name seen through the binding of its first name. -/
theorem resolve_of_find? {aliases : List Alias} {written : String} (h : '.' ∉ first.text.toList)
    (ha : aliases.find? (·.name = first.text) = some ⟨first.text, written⟩) :
    Alias.resolve aliases (dotted (first :: rest)) = written ++ trailing rest := by
  obtain ⟨hhead, htail⟩ := split_dotted rest h
  simp only [Alias.resolve, hhead, htail, String.ofList_toList, ha]

theorem forbiddenCallee?_isSome_iff {c : Context} {written : String} :
    (forbiddenCallee? c written).isSome = true ↔
      c.denylist.callables.contains written = true ∨
        c.denylist.callables.contains (Alias.resolve c.aliases written) = true := by
  simp [forbiddenCallee?, Denylist.forbidsCallable, or_comm]

theorem child?_function (hf : call.Formed) (hk : call.kind = .call) (hc : callee ∈ call.children)
    (hr : callee.role = .function) : call.child? .function = some callee := by
  have hs := hf.shape
  rw [hk] at hs
  obtain ⟨function, arguments, hchildren, hfunction, harguments⟩ := hs
  have hcallee : callee = function := by
    rw [hchildren] at hc
    obtain rfl | hc := List.mem_cons.mp hc
    · rfl
    · rw [List.mem_singleton.mp hc, harguments] at hr
      cases hr
  rw [child?, hchildren, List.find?_cons_of_pos (by simpa using hfunction), hcallee]

/-- A call whose callee is forbidden is found at the callee. -/
theorem exists_mem_callFindings {c : Context} {written : String} (hc : call.child? .function = some callee)
    (hd : dottedName? callee = some written) (h : (forbiddenCallee? c written).isSome = true) :
    ∃ message, forbiddenCallable message callee ∈ callFindings c call := by
  obtain ⟨name, hname⟩ := Option.isSome_iff_exists.mp h
  refine ⟨"call to forbidden callable '" ++ name ++ "'", ?_⟩
  simp only [callFindings, hc, hd, hname]
  simp

variable {source : List Char}

/-- A call of a dotted name is found at its callee when this is forbidden as it is written, or when it is forbidden
with the binding of its first name that prevails, if nothing is written around the points of what the import names. -/
theorem exists_forbiddenCallable (d : Denylist) (limits : PrevalidationConfig)
    (hread : Program.read source = .ok root) (hcall : call ∈ root.preorder) (hk : call.kind = .call)
    (hc : callee ∈ call.children) (hr : callee.role = .function) (hd : IsDotted callee (first :: rest))
    (h : d.callables.contains (dotted (first :: rest)) = true ∨
      ∃ statement listed target written, Binds statement listed first.text target written ∧
        Prevails root statement listed first.text ∧ written = dotted target ∧
        d.callables.contains (dotted (target ++ rest)) = true) :
    ∃ f ∈ Prevalidation.scan d limits source, f.severity = .error ∧
      f.code = some "forbidden-callable" ∧ f.location = some callee.place := by
  obtain ⟨ancestors, ha⟩ := exists_around hcall
  have hroot : root.Sound := (sound_of_read hread).1
  have hsound : call.Sound := ha.sound hroot
  obtain ⟨hfirst, hname⟩ := hd.sound_head (hsound.child hc)
  have hpoint : '.' ∉ first.text.toList := by
    have hshape := hfirst.formed.shape
    rw [hname] at hshape
    exact hshape.2.not_mem_point
  have hforbidden : (forbiddenCallee? ⟨d, Alias.ofTree root⟩ (dotted (first :: rest))).isSome = true := by
    rw [forbiddenCallee?_isSome_iff]
    obtain h | ⟨statement, listed, target, written, hb, hp, rfl, h⟩ := h
    · exact .inl h
    · right
      obtain ⟨before, after, hpre, -⟩ := hp.first
      have hs : statement ∈ root.preorder := by simp [hpre]
      obtain ⟨_, hs⟩ := exists_around hs
      have hne : target ≠ [] := hb.target_ne_nil (hs.sound hroot)
      rw [resolve_of_find? hpoint (find?_ofTree hroot hpoint hb hp), ← dotted_append hne]
      exact h
  have hcallee : call.child? .function = some callee := child?_function hsound.formed hk hc hr
  obtain ⟨message, hf⟩ := exists_mem_callFindings hcallee hd.dottedName?_eq hforbidden
  have hspot :
      forbiddenCallable message callee ∈ spotFindings ⟨d, Alias.ofTree root⟩ (spotOn ancestors call) := by
    rw [spotFindings, spotOn, hk]
    exact hf
  exact ⟨_, mem_scan hread ha hspot, rfl, rfl, rfl⟩

/-- A module under a new name. -/
theorem exists_forbiddenCallable_renamed :
    ∃ f ∈ Prevalidation.scan .standard {} "import subprocess as sp\nsp.run()\n".toList, f.severity = .error ∧
      f.code = some "forbidden-callable" ∧ f.location = some ⟨2, 1⟩ := by
  let path : Node := .mk .dottedName .name ⟨1, 8⟩ "subprocess" [.leaf .identifier ⟨1, 8⟩ "subprocess"]
  let newName : Node := .mk .identifier .newName ⟨1, 22⟩ "sp" []
  let listed : Node := .mk .aliasedImport .name ⟨1, 8⟩ "" [path, newName]
  let statement : Node := .branch .importStatement ⟨1, 1⟩ [listed]
  let head : Node := .mk .identifier .object ⟨2, 1⟩ "sp" []
  let member : Node := .mk .identifier .attribute ⟨2, 4⟩ "run" []
  let callee : Node := .mk .attribute .function ⟨2, 1⟩ "" [head, member]
  let call : Node := .branch .call ⟨2, 1⟩ [callee, .mk .argumentList .arguments ⟨2, 7⟩ "" []]
  let root : Node := .branch .module ⟨1, 1⟩ [statement, .branch .expressionStatement ⟨2, 1⟩ [call]]
  have hread : (Program.read "import subprocess as sp\nsp.run()\n".toList).toOption = some root := by decide +kernel
  have hcall : call ∈ root.preorder := by decide
  have hd : IsDotted callee [head, member] := .member rfl rfl (.name rfl)
  have hb : Binds statement listed newName.text path.children path.text := .module rfl List.mem_cons_self rfl rfl
  have hp : Prevails root statement listed "sp" := by
    refine ⟨⟨[root], root.preorder.drop 2, by decide +kernel, fun s hs n target written h => ?_⟩, [], [], rfl,
      List.forall_mem_nil _⟩
    cases List.mem_singleton.mp hs
    exact absurd h.kind_eq (by decide)
  exact exists_forbiddenCallable .standard {} (Program.read_eq_ok hread) hcall rfl List.mem_cons_self rfl hd
    (.inr ⟨statement, listed, path.children, path.text, hb, hp, by decide +kernel, by decide +kernel⟩)

end Vetting.Screening
