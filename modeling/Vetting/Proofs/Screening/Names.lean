import Vetting.Proofs.Python.Statements
import Vetting.Proofs.Screening.Spots

/-!
# Forbidden attributes

The name of an attribute is looked at with the attribute, and every other name where it stands, except in imports:
there the walk passes over all names. So a forbidden attribute is found wherever it is written outside of the
imports (`exists_forbiddenAttribute`), and an import hides the paths of its modules, the new names that it gives,
and the names that it fetches from a module.
-/

namespace Vetting.Screening

open Python Node

/-! ### Names of imports -/

/-- The nodes around a name that is part of the path of a module, innermost first. -/
inductive InModulePath : List Node → Prop
  | listed {path statement : Node} {rest : List Node} (hp : path.kind = .dottedName)
    (hs : statement.kind = .importStatement) : InModulePath (path :: statement :: rest)
  | renamed {path named statement : Node} {rest : List Node} (hp : path.kind = .dottedName)
    (hn : named.kind = .aliasedImport) (hs : statement.kind = .importStatement) :
    InModulePath (path :: named :: statement :: rest)
  | source {path statement : Node} {rest : List Node} (hp : path.kind = .dottedName) (hr : path.role = .moduleName)
    (hs : statement.kind = .importFrom) : InModulePath (path :: statement :: rest)
  | relative {path source : Node} {rest : List Node} (hp : path.kind = .dottedName)
    (hs : source.kind = .relativeImport) : InModulePath (path :: source :: rest)

/-- The nodes around a name that is fetched from a module, innermost first. -/
inductive IsFetched : List Node → Prop
  | listed {path statement : Node} {rest : List Node} (hp : path.kind = .dottedName) (hr : path.role = .name)
    (hs : statement.kind = .importFrom ∨ statement.kind = .futureImport) : IsFetched (path :: statement :: rest)
  | renamed {path named statement : Node} {rest : List Node} (hp : path.kind = .dottedName)
    (hn : named.kind = .aliasedImport) (hs : statement.kind = .importFrom ∨ statement.kind = .futureImport) :
    IsFetched (path :: named :: statement :: rest)

/-- Whether a name is the new name behind `as` in an import. -/
def IsNewName (path : List Node) (n : Node) : Prop :=
  ∃ named rest, path = named :: rest ∧ named.kind = .aliasedImport ∧ n.role = .newName

variable {d : Denylist} {source : List Char} {root n parent : Node} {path : List Node}

/-! ### Where parts of imports stand -/

/-- A path of names is the path of a module, or a name that is fetched from one. -/
theorem inModulePath_or_isFetched (hroot : root.Sound) (hm : root.kind = .module)
    (h : Around root (parent :: path) n) (hk : parent.kind = .dottedName) :
    InModulePath (parent :: path) ∨ IsFetched (parent :: path) := by
  have hne : ∀ {m : Node}, m.kind ≠ .module → m ≠ root := by
    rintro m hmk rfl
    exact hmk hm
  obtain ⟨outer, rest, rfl⟩ := h.parent.1.exists_parent (hne (by rw [hk]; decide))
  obtain ⟨houter, hchild⟩ := h.parent.1.parent
  have hfits := (houter.sound hroot).formed.fits parent hchild
  rw [hk] at hfits
  obtain ⟨himport | halias, hr⟩ | ⟨hfrom, hr⟩ | hrelative := Kind.fits_dottedName hfits
  · obtain hs | hs | hs := Kind.eq_of_isImport himport
    · exact .inl (.listed hk hs)
    · exact .inr (.listed hk hr (.inl hs))
    · exact .inr (.listed hk hr (.inr hs))
  · obtain ⟨statement, rest, rfl⟩ := houter.exists_parent (hne (by rw [halias]; decide))
    obtain ⟨hstatement, hchild⟩ := houter.parent
    have hfits := (hstatement.sound hroot).formed.fits outer hchild
    rw [halias] at hfits
    obtain hs | hs | hs := Kind.eq_of_isImport (Kind.fits_aliasedImport hfits)
    · exact .inl (.renamed hk halias hs)
    · exact .inr (.renamed hk halias (.inl hs))
    · exact .inr (.renamed hk halias (.inr hs))
  · exact .inl (.source hk hr hfrom)
  · exact .inl (.relative hk hrelative)

/-- The only name right below what an import lists under a new name is the new name. -/
theorem isNewName_of_aliasedImport (hp : parent.Formed) (hn : n ∈ parent.children) (hk : parent.kind = .aliasedImport)
    (hi : n.kind = .identifier) : IsNewName (parent :: path) n := by
  have hshape := hp.shape
  rw [hk] at hshape
  obtain ⟨target, newName, hc, -, ht, hr, -⟩ := hshape
  refine ⟨parent, path, rfl, hk, ?_⟩
  rw [hc] at hn
  obtain rfl | hn := List.mem_cons.mp hn
  · rw [ht] at hi
    cases hi
  · rw [List.mem_singleton.mp hn, hr]

/-- No name stands right below an import. -/
theorem isImport_eq_false (hp : parent.Formed) (hn : n ∈ parent.children) (hi : n.kind = .identifier) :
    parent.kind.isImport = false := by
  rw [Bool.eq_false_iff]
  intro himport
  have hlisted : ∀ c : Node, c.IsListed → c.kind ≠ .identifier := by
    rintro c ⟨-, hc | hc, -⟩ <;> rw [hc] <;> decide
  have hshape := hp.shape
  obtain hk | hk | hk := Kind.eq_of_isImport himport
  all_goals rw [hk] at hshape
  · exact hlisted n (hshape n hn) hi
  · obtain ⟨module, names, hc, -, hm, hnames⟩ := hshape
    rw [hc] at hn
    obtain rfl | hn := List.mem_cons.mp hn
    · rw [hi] at hm
      obtain hm | hm := hm <;> cases hm
    · obtain h | ⟨-, h⟩ := hnames n hn
      · exact hlisted n h hi
      · rw [hi] at h
        cases h
  · exact hlisted n (hshape n hn) hi

/-- A name that is looked at with the node above is the name of an attribute or a part of an import. -/
theorem isPartOfParent_cases (hp : parent.Formed) (hn : n ∈ parent.children) (hi : n.kind = .identifier)
    (h : isPartOfParent parent n = true) :
    (parent.kind = .attribute ∧ n.role = .attribute) ∨ parent.kind = .dottedName ∨ parent.kind = .aliasedImport := by
  have himport := isImport_eq_false hp hn hi
  unfold isPartOfParent at h
  split at h
  case h_1 hk => exact .inl ⟨hk, of_decide_eq_true h⟩
  case h_2 hk => exact .inr (.inl hk)
  case h_3 hk => exact .inr (.inr hk)
  case h_4 hk | h_5 hk =>
    rw [hk] at himport
    cases himport
  case h_6 => cases h

/-- The name of an attribute is what the attribute is looked at for. -/
theorem child?_attribute (hp : parent.Formed) (hn : n ∈ parent.children) (hk : parent.kind = .attribute)
    (hr : n.role = .attribute) : parent.child? .attribute = some n := by
  have hshape := hp.shape
  rw [hk] at hshape
  obtain ⟨object, name, hc, ho, ha, -⟩ := hshape
  have hname : n = name := by
    rw [hc] at hn
    obtain rfl | hn := List.mem_cons.mp hn
    · rw [ho] at hr
      cases hr
    · exact List.mem_singleton.mp hn
  rw [child?, hc, List.find?_cons_of_neg (by simp [ho]), List.find?_cons_of_pos (by simp [ha]), hname]

/-! ### Findings -/

/-- What a program writes of a forbidden attribute outside of its imports is found. -/
theorem exists_forbiddenAttribute (d : Denylist) (limits : PrevalidationConfig)
    (hread : Program.read source = .ok root) (h : Around root path n) (hn : n.kind = .identifier)
    (hd : d.attributes.contains n.text = true) (hmodule : ¬ InModulePath path) (hnew : ¬ IsNewName path n)
    (hfetched : ¬ IsFetched path) :
    ∃ f ∈ Prevalidation.scan d limits source, f.severity = .critical ∧
      f.code = some "forbidden-attribute" ∧ f.location = some n.place := by
  have hforbids : d.forbidsAttribute n.text = true := hd
  obtain ⟨hroot, hm⟩ := sound_of_read hread
  obtain ⟨parent, rest, rfl⟩ := h.exists_parent (by rintro rfl; rw [hm] at hn; cases hn)
  obtain ⟨hparent, hchild⟩ := h.parent
  have hformed := (hparent.sound hroot).formed
  by_cases hpart : isPartOfParent parent n = true
  · obtain ⟨hk, hr⟩ | hk | hk := isPartOfParent_cases hformed hchild hn hpart
    · have hf : forbiddenAttribute ("access to forbidden attribute '" ++ n.text ++ "'") n
          ∈ spotFindings ⟨d, Alias.ofTree root⟩ (spotOn rest parent) := by
        rw [spotFindings, spotOn, hk]
        simp only [attributeFindings, child?_attribute hformed hchild hk hr]
        rw [if_pos hforbids]
        exact List.mem_singleton_self _
      exact ⟨_, mem_scan hread hparent hf, rfl, rfl, rfl⟩
    · exact absurd (inModulePath_or_isFetched hroot hm h hk) (not_or.mpr ⟨hmodule, hfetched⟩)
    · exact absurd (isNewName_of_aliasedImport hformed hchild hk hn) hnew
  · have hf : forbiddenAttribute ("reference to forbidden name '" ++ n.text ++ "'") n
        ∈ spotFindings ⟨d, Alias.ofTree root⟩ (spotOn (parent :: rest) n) := by
      rw [spotFindings, spotOn, hn]
      simp only [List.head?_cons, nameFindings]
      rw [if_neg hpart, if_pos hforbids]
      exact List.mem_singleton_self _
    exact ⟨_, mem_scan hread h hf, rfl, rfl, rfl⟩

/-- The name of an attribute. -/
theorem exists_forbiddenAttribute_globals :
    ∃ f ∈ Prevalidation.scan .standard {} "f.__globals__\n".toList, f.severity = .critical ∧
      f.code = some "forbidden-attribute" ∧ f.location = some ⟨1, 3⟩ := by
  let name : Node := .mk .identifier .attribute ⟨1, 3⟩ "__globals__" []
  let access : Node := .branch .attribute ⟨1, 1⟩ [.mk .identifier .object ⟨1, 1⟩ "f" [], name]
  let statement : Node := .branch .expressionStatement ⟨1, 1⟩ [access]
  let root : Node := .branch .module ⟨1, 1⟩ [statement]
  have hread : (Program.read "f.__globals__\n".toList).toOption = some root := by decide +kernel
  have h : Around root [access, statement, root] name := by
    refine .child (.child (.child .root ?_) ?_) ?_ <;> decide
  refine exists_forbiddenAttribute .standard {} (Program.read_eq_ok hread) h rfl (by decide +kernel) ?_ ?_ ?_
  · intro hm
    cases hm with
    | listed hp => exact absurd hp (by decide)
    | renamed hp => exact absurd hp (by decide)
    | source hp => exact absurd hp (by decide)
    | relative hp => exact absurd hp (by decide)
  · rintro ⟨named, rest, hpath, hk, -⟩
    cases hpath
    exact absurd hk (by decide)
  · intro hf
    cases hf with
    | listed hp => exact absurd hp (by decide)
    | renamed hp => exact absurd hp (by decide)

end Vetting.Screening
