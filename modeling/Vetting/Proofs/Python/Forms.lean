import Vetting.Python.Tree
import Vetting.Text.Identifier

/-!
# Forms of syntax trees

Which nodes may stand where, and what the nodes of some kinds are made of. `Kind.fits` says below which nodes
a node of a kind may stand: statements stand in blocks, targets on the left of what binds them, parameters in
parameter lists, and paths in imports. `Node.Formed` is that law for one node together with the parts that its
kind asks for, and a tree is `Sound` when all its nodes are formed. `Node.IsValue` is what every reading of an
expression gives: a sound node that may stand anywhere.
-/

namespace Vetting.Python

namespace Kind

/-! ### Families of kinds -/

/-- Targets that are made of others. -/
def isPattern : Kind → Bool
  | .patternList => true
  | .tuplePattern => true
  | .parenthesizedPattern => true
  | .listPattern => true
  | .listSplatPattern => true
  | _ => false

def isTarget (k : Kind) : Bool :=
  k.isPattern || k = .identifier || k = .attribute || k = .subscript

/-- What assigns to a target on its left. -/
def takesTarget : Kind → Bool
  | .assignment => true
  | .augmentedAssignment => true
  | .forStatement => true
  | .forClause => true
  | _ => false

def isParameterList : Kind → Bool
  | .parameters => true
  | .lambdaParameters => true
  | _ => false

/-- Parameters that are more than a name. -/
def isParameter : Kind → Bool
  | .typedParameter => true
  | .defaultParameter => true
  | .typedDefaultParameter => true
  | .dictionarySplatPattern => true
  | _ => false

/-- Statements; an assignment is only a part of one. -/
def isStatement : Kind → Bool
  | .expressionStatement => true
  | .returnStatement => true
  | .deleteStatement => true
  | .raiseStatement => true
  | .assertStatement => true
  | .passStatement => true
  | .breakStatement => true
  | .continueStatement => true
  | .globalStatement => true
  | .nonlocalStatement => true
  | .typeAlias => true
  | .importStatement => true
  | .importFrom => true
  | .futureImport => true
  | .printStatement => true
  | .execStatement => true
  | .ifStatement => true
  | .whileStatement => true
  | .forStatement => true
  | .tryStatement => true
  | .withStatement => true
  | .functionDefinition => true
  | .classDefinition => true
  | .decoratedDefinition => true
  | _ => false

/-- The statements that import something. -/
def isImport : Kind → Bool
  | .importStatement => true
  | .importFrom => true
  | .futureImport => true
  | _ => false

/-- What stands only in imports. -/
def isImportPart : Kind → Bool
  | .dottedName => true
  | .aliasedImport => true
  | .relativeImport => true
  | .wildcardImport => true
  | _ => false

def isAssignment : Kind → Bool
  | .assignment => true
  | .augmentedAssignment => true
  | _ => false

/-- Parts of compound statements. -/
def isClause : Kind → Bool
  | .elifClause => true
  | .elseClause => true
  | .exceptClause => true
  | .exceptGroupClause => true
  | .finallyClause => true
  | .withItem => true
  | .decorator => true
  | _ => false

def holdsStatements : Kind → Bool
  | .module => true
  | .block => true
  | .decoratedDefinition => true
  | _ => false

/-- What stands within a statement and holds none. -/
def isInline (k : Kind) : Bool :=
  !k.isStatement && !k.isImportPart && !k.isAssignment && !k.isClause && !k.holdsStatements

/-- Expressions, and parts of them that have no place of their own. -/
def standsAnywhere (k : Kind) : Bool :=
  k.isInline && !k.isPattern && !k.isParameter && !k.isParameterList

/-! ### Places -/

/-- Whether targets of every kind may play a part in a node of a kind. -/
def holdsTargets (parent : Kind) (role : Role) : Bool :=
  parent.isPattern || (parent.takesTarget && role = .left) || parent.isParameterList
    || parent = .typedParameter || (parent = .defaultParameter && role = .name)

/-- Whether a node of kind `child` may play a part in a node of kind `parent`. -/
def fits (parent : Kind) (role : Role) (child : Kind) : Bool :=
  if child.isPattern then parent.holdsTargets role
  else if child = .dictionarySplatPattern then parent.isParameterList || parent = .typedParameter
  else if child.isParameter then parent.isParameterList
  else if child = .parameters then parent = .functionDefinition && role = .parameters
  else if child = .lambdaParameters then parent = .lambda && role = .parameters
  else if child.isAssignment then
    parent = .expressionStatement || (parent = .assignment && role = .right)
  else if child = .dottedName then
    ((parent.isImport || parent = .aliasedImport) && role = .name)
      || (parent = .importFrom && role = .moduleName) || parent = .relativeImport
  else if child = .aliasedImport then parent.isImport && role = .name
  else if child.isImportPart then parent = .importFrom
  else if child.isStatement then parent.holdsStatements
  else if child = .block then role = .body && (parent.isStatement || parent.isClause)
  else if child.isClause then parent.isStatement
  else child ≠ .module

variable {parent child : Kind} {role : Role}

theorem fits_of_standsAnywhere (h : child.standsAnywhere = true) : parent.fits role child = true := by
  revert h
  cases child <;> simp +decide [fits]

theorem isInline_of_standsAnywhere (h : child.standsAnywhere = true) : child.isInline = true := by
  simp only [standsAnywhere, Bool.and_eq_true] at h
  exact h.1.1.1

theorem holdsTargets_of_isParameterList (h : parent.isParameterList = true) :
    parent.holdsTargets role = true := by
  simp only [holdsTargets, h, Bool.or_true, Bool.true_or]

theorem fits_of_isTarget (h : child.isTarget = true) (hp : parent.holdsTargets role = true) :
    parent.fits role child = true := by
  by_cases hc : child.isPattern = true
  · simp only [fits, hc, if_true, hp]
  · apply fits_of_standsAnywhere
    simp only [isTarget, hc, Bool.false_or, Bool.or_eq_true, decide_eq_true_eq] at h
    obtain (rfl | rfl) | rfl := h <;> rfl

theorem fits_parameterList (hc : child.isParameterList = true) (h : parent.fits role child = true) :
    (parent = .functionDefinition ∨ parent = .lambda) ∧ role = .parameters := by
  revert h
  cases child <;> simp [isParameterList, fits, isPattern, isParameter] at hc ⊢ <;> simp +contextual

/-- A whole text holds what a block does. -/
theorem fits_module : Kind.fits .module role child = Kind.fits .block role child := rfl

theorem isStatement_of_isImport {k : Kind} (h : k.isImport = true) : k.isStatement = true := by
  revert h
  cases k <;> simp [isImport, isStatement]

theorem eq_of_isImport {k : Kind} (h : k.isImport = true) :
    k = .importStatement ∨ k = .importFrom ∨ k = .futureImport := by
  revert h
  cases k <;> simp [isImport]

theorem fits_dottedName (h : parent.fits role .dottedName = true) :
    ((parent.isImport = true ∨ parent = .aliasedImport) ∧ role = .name) ∨
      (parent = .importFrom ∧ role = .moduleName) ∨ parent = .relativeImport := by
  simpa [fits, isPattern, isParameter, isAssignment, or_assoc] using h

theorem fits_aliasedImport (h : parent.fits role .aliasedImport = true) : parent.isImport = true := by
  have hfits : (parent.isImport && role = .name) = true := h
  exact (Bool.and_eq_true_iff.mp hfits).1

theorem isInline_of_isParameterList {k : Kind} (h : k.isParameterList = true) : k.isInline = true := by
  revert h
  cases k <;> decide

/-- Nothing below an inline node is a statement or a part of one. -/
theorem isInline_of_fits (hp : parent.isInline = true) (h : parent.fits role child = true) :
    child.isInline = true := by
  simp only [isInline, Bool.and_eq_true, Bool.not_eq_true'] at hp
  obtain ⟨⟨⟨⟨hs, hi⟩, ha⟩, hc⟩, hh⟩ := hp
  have himport : parent.isImport = false := by
    rw [Bool.eq_false_iff]
    intro ht
    rw [isStatement_of_isImport ht] at hs
    cases hs
  have haliased : parent ≠ .aliasedImport := by rintro rfl; cases hi
  have hfrom : parent ≠ .importFrom := by rintro rfl; cases himport
  have hrelative : parent ≠ .relativeImport := by rintro rfl; cases hi
  have hexpression : parent ≠ .expressionStatement := by rintro rfl; cases hs
  have hassignment : parent ≠ .assignment := by rintro rfl; cases ha
  revert h
  cases child <;> simp +decide [fits, holdsTargets, hs, hc, hh, himport, haliased, hfrom, hrelative, hexpression,
    hassignment]

end Kind

namespace Node

/-! ### Paths -/

/-- A point of a path and the name behind it, with the blanks on both sides of the point. -/
structure Joint where
  before : List Char
  behind : List Char
  name : Node

def Joint.text (j : Joint) : List Char := j.before ++ '.' :: j.behind ++ j.name.text.toList

/-- Whether nothing stands around the point. -/
def Joint.IsTight (j : Joint) : Prop := j.before = [] ∧ j.behind = []

/-- How a path is written: its first name, and behind it the joints with the other names. -/
structure LaidOut (text : String) (names : List Node) (first : Node) (joints : List Joint) : Prop where
  names : names = first :: joints.map Joint.name
  text : text.toList = first.text.toList ++ joints.flatMap Joint.text

/-- What a name can be written as. -/
def IsWord (text : String) : Prop := text.toList.all Text.isIdentifierPart = true

theorem IsWord.not_mem_point {text : String} (h : IsWord text) : '.' ∉ text.toList := by
  intro hp
  have hpart := List.all_eq_true.mp h '.' hp
  revert hpart
  decide

/-- Names, and a text that is their path. -/
def IsPath (text : String) (names : List Node) : Prop :=
  (∀ n ∈ names, n.kind = .identifier) ∧ ∃ first joints, LaidOut text names first joints

/-! ### Parts -/

/-- A name that an import lists: a path, or a path with the name it is given. -/
def IsListed (n : Node) : Prop :=
  n.role = .name ∧ (n.kind = .dottedName ∨ n.kind = .aliasedImport) ∧
    (n.kind = .dottedName → ∀ c ∈ n.children, c.role = .part)

/-- The parts that nodes of some kinds are made of. -/
def Shape (kind : Kind) (text : String) (children : List Node) : Prop :=
  match kind with
  | .identifier => children = [] ∧ IsWord text
  | .dottedName => IsPath text children
  | .aliasedImport => ∃ path newName, children = [path, newName] ∧ path.role = .name ∧
      path.kind = .dottedName ∧ newName.role = .newName ∧ newName.kind = .identifier
  | .importStatement => ∀ c ∈ children, c.IsListed
  | .futureImport => ∀ c ∈ children, c.IsListed
  | .importFrom => ∃ source names, children = source :: names ∧ source.role = .moduleName ∧
      (source.kind = .dottedName ∨ source.kind = .relativeImport) ∧
        ∀ c ∈ names, c.IsListed ∨ c.role = .part ∧ c.kind = .wildcardImport
  | .relativeImport => ∀ c ∈ children, c.kind = .dottedName
  | .wildcardImport => children = []
  | .attribute => ∃ object name, children = [object, name] ∧ object.role = .object ∧
      name.role = .attribute ∧ name.kind = .identifier
  | .call => ∃ function arguments, children = [function, arguments] ∧ function.role = .function ∧
      arguments.role = .arguments
  | .globalStatement => ∀ c ∈ children, c.kind = .identifier
  | .nonlocalStatement => ∀ c ∈ children, c.kind = .identifier
  | .functionDefinition => ∀ c ∈ children, (c.role = .parameters → c.kind = .parameters) ∧
      (c.role ≠ .body → c.kind.isInline = true)
  | .classDefinition => ∀ c ∈ children, c.role ≠ .body → c.kind.isInline = true
  | .lambda => ∀ c ∈ children, c.role = .parameters → c.kind = .lambdaParameters
  | .typedParameter => ∀ c ∈ children, c.kind ≠ .type → c.role ≠ .type
  | _ => True

/-- A node whose children stand where they may, and are what its kind asks for. -/
structure Formed (n : Node) : Prop where
  fits : ∀ c ∈ n.children, n.kind.fits c.role c.kind = true
  shape : Shape n.kind n.text n.children

/-- A tree all of whose nodes are formed. -/
def Sound (n : Node) : Prop := ∀ m ∈ n.preorder, m.Formed

variable {n m : Node} {k : Kind} {r : Role} {p : Location} {t : String} {cs : List Node}

theorem sound_iff : n.Sound ↔ n.Formed ∧ ∀ c ∈ n.children, c.Sound := by
  constructor
  · intro h
    refine ⟨h n mem_preorder_self, fun c hc m hm => h m ?_⟩
    exact mem_preorder.mpr (.inr ⟨c, hc, hm⟩)
  · rintro ⟨hn, hc⟩ m hm
    obtain rfl | ⟨c, hcn, hmc⟩ := mem_preorder.mp hm
    · exact hn
    · exact hc c hcn m hmc

theorem Sound.formed (h : n.Sound) : n.Formed := (sound_iff.mp h).1

theorem Sound.child (h : n.Sound) {c : Node} (hc : c ∈ n.children) : c.Sound := (sound_iff.mp h).2 c hc

@[simp] theorem sound_as : (n.as r).Sound ↔ n.Sound := by
  have h : (n.as r).Formed ↔ n.Formed := by
    constructor
    · rintro ⟨hf, hs⟩
      simp only [kind_as, text_as, children_as] at hf hs
      exact ⟨hf, hs⟩
    · rintro ⟨hf, hs⟩
      refine ⟨?_, ?_⟩ <;> simp only [kind_as, text_as, children_as]
      · exact hf
      · exact hs
  rw [sound_iff, sound_iff, h, children_as]

theorem sound_mk (hf : ∀ c ∈ cs, k.fits c.role c.kind = true) (hc : ∀ c ∈ cs, c.Sound)
    (hs : Shape k t cs) : (mk k r p t cs).Sound :=
  sound_iff.mpr ⟨⟨hf, hs⟩, hc⟩

theorem sound_branch (hf : ∀ c ∈ cs, k.fits c.role c.kind = true) (hc : ∀ c ∈ cs, c.Sound)
    (hs : Shape k "" cs) : (branch k p cs).Sound :=
  sound_mk hf hc hs

theorem sound_leaf (hs : Shape k t []) : (leaf k p t).Sound :=
  sound_mk (List.forall_mem_nil _) (List.forall_mem_nil _) hs

/-! ### Values and targets -/

/-- A sound node that may stand anywhere. -/
structure IsValue (n : Node) : Prop where
  sound : n.Sound
  anywhere : n.kind.standsAnywhere = true

namespace IsValue

theorem fits (h : n.IsValue) : k.fits r n.kind = true := Kind.fits_of_standsAnywhere h.anywhere

theorem isInline (h : n.IsValue) : n.kind.isInline = true := Kind.isInline_of_standsAnywhere h.anywhere

theorem branch (hk : k.standsAnywhere = true) (hc : ∀ c ∈ cs, c.IsValue) (hs : Shape k "" cs) :
    (branch k p cs).IsValue :=
  ⟨sound_branch (fun c h => (hc c h).fits) (fun c h => (hc c h).sound) hs, hk⟩

theorem leaf (hk : k.standsAnywhere = true) (hs : Shape k t []) : (leaf k p t).IsValue :=
  ⟨sound_leaf hs, hk⟩

end IsValue

@[simp] theorem isValue_as : (n.as r).IsValue ↔ n.IsValue := by
  constructor
  · rintro ⟨hs, hk⟩
    exact ⟨sound_as.mp hs, by simpa using hk⟩
  · rintro ⟨hs, hk⟩
    exact ⟨sound_as.mpr hs, by simpa using hk⟩

/-- A sound node that can be assigned to. -/
structure IsTarget (n : Node) : Prop where
  sound : n.Sound
  target : n.kind.isTarget = true

namespace IsTarget

theorem fits (h : n.IsTarget) (hk : k.holdsTargets r = true) : k.fits r n.kind = true :=
  Kind.fits_of_isTarget h.target hk

theorem pattern (hk : k.isPattern = true) (hc : ∀ c ∈ cs, c.IsTarget) (hs : Shape k t cs) :
    (Node.mk k r p t cs).IsTarget :=
  ⟨sound_mk (fun c h => (hc c h).fits (by simp [Kind.holdsTargets, hk])) (fun c h => (hc c h).sound) hs,
    by simp [Kind.isTarget, hk]⟩

end IsTarget

end Node

end Vetting.Python
