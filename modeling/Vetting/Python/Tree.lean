import Vetting.Finding

/-!
Syntax trees of Python source. All nodes have one form: a kind, the part they play in the node above,
the place where they start, a text where one belongs to them, and the nodes below in source order. So
a law about every identifier at any depth needs no case for each construct.
-/

namespace Vetting.Python

/-- What a node is. -/
inductive Kind
  | module
  | block
  -- What is broken
  | error
  | missing
  -- Names and literals
  | identifier
  | dottedName
  | number
  | constant
  | ellipsis
  | string
  | stringStart
  | stringContent
  | interpolation
  | formatSpecifier
  | concatenatedString
  -- Expressions
  | attribute
  | subscript
  | slice
  | call
  | argumentList
  | keywordArgument
  | lineContinuation
  | listSplat
  | dictionarySplat
  | parenthesized
  | tuple
  | list
  | set
  | dictionary
  | pair
  | listComprehension
  | setComprehension
  | dictionaryComprehension
  | generator
  | forClause
  | ifClause
  | unary
  | binary
  | comparison
  | negation
  | boolean
  | conditional
  | lambda
  | lambdaParameters
  | named
  | await
  | yield
  | yieldFrom
  | expressionList
  -- Targets
  | patternList
  | tuplePattern
  | parenthesizedPattern
  | listPattern
  | listSplatPattern
  | dictionarySplatPattern
  | asPattern
  | asPatternTarget
  -- Annotations
  | type
  | genericType
  | unionType
  | memberType
  | constrainedType
  | splatType
  | typeArguments
  | typeParameters
  -- Simple statements
  | expressionStatement
  | assignment
  | augmentedAssignment
  | returnStatement
  | deleteStatement
  | raiseStatement
  | assertStatement
  | passStatement
  | breakStatement
  | continueStatement
  | globalStatement
  | nonlocalStatement
  | typeAlias
  | importStatement
  | importFrom
  | futureImport
  | relativeImport
  | aliasedImport
  | wildcardImport
  | printStatement
  | execStatement
  -- Compound statements
  | ifStatement
  | elifClause
  | elseClause
  | whileStatement
  | forStatement
  | tryStatement
  | exceptClause
  | exceptGroupClause
  | finallyClause
  | withStatement
  | withItem
  | functionDefinition
  | classDefinition
  | decoratedDefinition
  | decorator
  | asyncMark
  | parameters
  | typedParameter
  | defaultParameter
  | typedDefaultParameter
  | positionalMark
  | keywordMark
deriving DecidableEq

/-- The part that a node plays in the node above it. -/
inductive Role
  | part
  | name
  | newName
  | moduleName
  | function
  | arguments
  | object
  | attribute
  | left
  | right
  | value
  | type
  | returnType
  | parameters
  | superclasses
  | condition
  | body
  | alternative
deriving DecidableEq

/-- A node of a syntax tree. -/
inductive Node where
  | mk (kind : Kind) (role : Role) (place : Location) (text : String) (children : List Node)

namespace Node

def kind : Node → Kind
  | .mk k _ _ _ _ => k

def role : Node → Role
  | .mk _ r _ _ _ => r

def place : Node → Location
  | .mk _ _ p _ _ => p

/-- The source text of a name, a module path, a part of a string, a `print` statement or a broken stretch; of what is
missing, its spelling. -/
def text : Node → String
  | .mk _ _ _ t _ => t

def children : Node → List Node
  | .mk _ _ _ _ c => c

def leaf (kind : Kind) (place : Location) (text : String) : Node := .mk kind .part place text []

def branch (kind : Kind) (place : Location) (children : List Node) : Node :=
  .mk kind .part place "" children

/-- The same node in another part. -/
def as (role : Role) : Node → Node
  | .mk k _ p t c => .mk k role p t c

/-- The same node as another kind. -/
def ofKind (kind : Kind) : Node → Node
  | .mk _ r p t c => .mk kind r p t c

section

variable {n : Node} {k : Kind} {r : Role} {p : Location} {t : String} {c : List Node}

@[simp] theorem kind_mk : (mk k r p t c).kind = k := rfl
@[simp] theorem role_mk : (mk k r p t c).role = r := rfl
@[simp] theorem place_mk : (mk k r p t c).place = p := rfl
@[simp] theorem text_mk : (mk k r p t c).text = t := rfl
@[simp] theorem children_mk : (mk k r p t c).children = c := rfl

@[simp] theorem kind_leaf : (leaf k p t).kind = k := rfl
@[simp] theorem role_leaf : (leaf k p t).role = .part := rfl
@[simp] theorem text_leaf : (leaf k p t).text = t := rfl
@[simp] theorem children_leaf : (leaf k p t).children = [] := rfl

@[simp] theorem kind_branch : (branch k p c).kind = k := rfl
@[simp] theorem role_branch : (branch k p c).role = .part := rfl
@[simp] theorem text_branch : (branch k p c).text = "" := rfl
@[simp] theorem children_branch : (branch k p c).children = c := rfl

@[simp] theorem kind_as : (n.as r).kind = n.kind := by cases n; rfl
@[simp] theorem role_as : (n.as r).role = r := by cases n; rfl
@[simp] theorem place_as : (n.as r).place = n.place := by cases n; rfl
@[simp] theorem text_as : (n.as r).text = n.text := by cases n; rfl
@[simp] theorem children_as : (n.as r).children = n.children := by cases n; rfl

end

mutual

def decEq : (m n : Node) → Decidable (m = n)
  | .mk k r p t c, .mk k' r' p' t' c' =>
    if h : k = k' ∧ r = r' ∧ p = p' ∧ t = t' then
      match decEqAll c c' with
      | isTrue hc => isTrue (by obtain ⟨rfl, rfl, rfl, rfl⟩ := h; rw [hc])
      | isFalse hc => isFalse fun e => hc (Node.mk.inj e).2.2.2.2
    else isFalse fun e => h ⟨(Node.mk.inj e).1, (Node.mk.inj e).2.1, (Node.mk.inj e).2.2.1,
      (Node.mk.inj e).2.2.2.1⟩
termination_by structural m => m

def decEqAll : (ms ns : List Node) → Decidable (ms = ns)
  | [], [] => isTrue rfl
  | [], _ :: _ => isFalse nofun
  | _ :: _, [] => isFalse nofun
  | m :: ms, n :: ns =>
    match decEq m n, decEqAll ms ns with
    | isTrue h, isTrue hs => isTrue (by rw [h, hs])
    | isFalse h, _ => isFalse fun e => h (List.cons.inj e).1
    | _, isFalse hs => isFalse fun e => hs (List.cons.inj e).2
termination_by structural ms => ms

end

instance : DecidableEq Node := decEq

/-- The first child that plays a part. -/
def child? (n : Node) (role : Role) : Option Node := n.children.find? (·.role = role)

/-- All children that play a part. -/
def childrenAs (n : Node) (role : Role) : List Node := n.children.filter (·.role = role)

mutual

/-- The node and all nodes below it, each before what lies below it. -/
def preorder : Node → List Node
  | .mk k r p t c => .mk k r p t c :: preorderAll c
termination_by structural n => n

def preorderAll : List Node → List Node
  | [] => []
  | n :: rest => preorder n ++ preorderAll rest
termination_by structural ns => ns

end

/-- What holds of a node as soon as it holds of its children, holds of every node. -/
@[elab_as_elim]
theorem childInduction {motive : Node → Prop} (step : ∀ n, (∀ c ∈ n.children, motive c) → motive n)
    (n : Node) : motive n :=
  step n fun c hc =>
    have : sizeOf c < sizeOf n := by
      cases n with
      | mk k r p t ns =>
        have := List.sizeOf_lt_of_mem hc
        simp only [children_mk, mk.sizeOf_spec] at this ⊢
        omega
    childInduction step c
termination_by sizeOf n

theorem preorderAll_append (ms ns : List Node) : preorderAll (ms ++ ns) = preorderAll ms ++ preorderAll ns := by
  induction ms with
  | nil => rfl
  | cons m rest ih => simp [preorderAll, ih]

/-- The first of some trees can be taken apart: what is below its root comes before the other trees. -/
theorem preorderAll_cons (n : Node) (rest : List Node) :
    preorderAll (n :: rest) = n :: preorderAll (n.children ++ rest) := by
  cases n with
  | mk k r p t c => simp [preorderAll, preorder, preorderAll_append]

theorem mem_preorderAll {m : Node} {ns : List Node} :
    m ∈ preorderAll ns ↔ ∃ n ∈ ns, m ∈ n.preorder := by
  induction ns with
  | nil => simp [preorderAll]
  | cons n rest ih => simp [preorderAll, ih]

theorem mem_preorder {m n : Node} : m ∈ n.preorder ↔ m = n ∨ ∃ c ∈ n.children, m ∈ c.preorder := by
  cases n with
  | mk k r p t c => simp [preorder, mem_preorderAll]

theorem mem_preorder_self {n : Node} : n ∈ n.preorder := mem_preorder.mpr (.inl rfl)

/-- What is below a node of a tree is in the tree. -/
theorem mem_preorder_of_mem_children {m n c : Node} (hm : m ∈ n.preorder) (hc : c ∈ m.children) :
    c ∈ n.preorder := by
  induction n using childInduction with
  | step n ih =>
    obtain rfl | ⟨d, hd, hmd⟩ := mem_preorder.mp hm
    · exact mem_preorder.mpr (.inr ⟨c, hc, mem_preorder_self⟩)
    · exact mem_preorder.mpr (.inr ⟨d, hd, ih d hd hmd⟩)

end Node

end Vetting.Python
