import Vetting.Proofs.Python.Forms

/-!
# How names are resolved

The rules by which the language looks up a name that is read, on syntax trees. Each function, lambda and class has a
body with names of its own, which are bound or declared by what runs with it (`Runs`), and each comprehension has the
variables of its loops. A place in a tree lies in layers of these (`layersOn`), and a name is looked up from the
innermost outward: it is a local of the first function that binds it or the variable of the first comprehension that
loops over it, unless a global declaration comes before; the names of classes are passed over, except those of a class
whose body the place itself is in (`ReadsLocal`). Names are compared as they are written.
-/

namespace Vetting.Python

namespace Kind

/-- What has a body that runs on its own. -/
def hasOwnBody : Kind → Bool
  | .functionDefinition => true
  | .lambda => true
  | .classDefinition => true
  | _ => false

def isComprehension : Kind → Bool
  | .listComprehension => true
  | .setComprehension => true
  | .dictionaryComprehension => true
  | .generator => true
  | _ => false

/-- What is taken apart where it is assigned to. -/
def isTakenApart : Kind → Bool
  | .patternList => true
  | .tuplePattern => true
  | .parenthesizedPattern => true
  | .listPattern => true
  | .listSplatPattern => true
  | .tuple => true
  | .parenthesized => true
  | .list => true
  | .expressionList => true
  | .listSplat => true
  | _ => false

end Kind

namespace Node

/-! ### What binds names -/

/-- Whether assigning to a node binds a name. -/
inductive Targets (name : String) : Node → Prop
  | name {n : Node} (hk : n.kind = .identifier) (ht : n.text = name) : Targets name n
  | part {n c : Node} (hk : n.kind.isTakenApart = true) (hc : c ∈ n.children) (h : Targets name c) : Targets name n

/-- Whether a parameter binds a name. -/
inductive NamesParameter (name : String) : Node → Prop
  | target {n : Node} (h : Targets name n) : NamesParameter name n
  | gathered {n c : Node} (hk : n.kind = .dictionarySplatPattern) (hc : c ∈ n.children) (h : Targets name c) :
    NamesParameter name n
  | typed {n c : Node} (hk : n.kind = .typedParameter) (hc : c ∈ n.children) (hr : c.role ≠ .type)
    (h : NamesParameter name c) : NamesParameter name n
  | defaulted {n c : Node} (hk : n.kind = .defaultParameter ∨ n.kind = .typedDefaultParameter) (hc : c ∈ n.children)
    (hr : c.role = .name) (h : Targets name c) : NamesParameter name n

/-- Whether a name is the first of a path. -/
def StartsWith (path : Node) (name : String) : Prop := ∃ first, path.children.head? = some first ∧ first.text = name

/-- Whether a node binds a name in the body that it runs with. -/
inductive Introduces (name : String) (n : Node) : Prop
  | assigned {c : Node} (hk : n.kind = .assignment ∨ n.kind = .augmentedAssignment ∨ n.kind = .forStatement)
    (hc : c ∈ n.children) (hr : c.role = .left) (h : Targets name c)
  /-- By `as` in a statement, or by deleting it. -/
  | marked {c : Node} (hk : n.kind = .asPatternTarget ∨ n.kind = .deleteStatement) (hc : c ∈ n.children)
    (h : Targets name c)
  | defined {c : Node} (hk : n.kind = .functionDefinition ∨ n.kind = .classDefinition ∨ n.kind = .named)
    (hc : c ∈ n.children) (hr : c.role = .name) (ht : c.text = name)
  | typed {c m : Node} (hk : n.kind = .typeAlias) (hc : c ∈ n.children) (hr : c.role = .left) (hm : m ∈ c.children)
    (h : m.kind = .identifier ∧ m.text = name ∨ m.kind = .genericType ∧ m.StartsWith name)
  | imported {path : Node} (hk : n.kind.isImport = true) (hc : path ∈ n.children) (hr : path.role = .name)
    (hp : path.kind = .dottedName) (h : path.StartsWith name)
  | renamed {named c : Node} (hk : n.kind.isImport = true) (hn : named ∈ n.children)
    (ha : named.kind = .aliasedImport) (hc : c ∈ named.children) (hr : c.role = .newName) (ht : c.text = name)

/-! ### Names of bodies -/

/-- The nodes that run with the body of a node. What is in a body of its own does not; what stands beside such a
body does. -/
inductive Runs (owner : Node) : Node → Prop
  | body {n : Node} (hn : n ∈ owner.children) (hr : n.role = .body) : Runs owner n
  | child {parent n : Node} (h : Runs owner parent) (hn : n ∈ parent.children)
    (hr : parent.kind.hasOwnBody = true → n.role ≠ .body) : Runs owner n

def HasParameter (function : Node) (name : String) : Prop :=
  ∃ list ∈ function.children, list.role = .parameters ∧ ∃ n ∈ list.children, NamesParameter name n

/-- Whether a function or a class binds a name, by a parameter or in its body. -/
def Binds (owner : Node) (name : String) : Prop :=
  owner.HasParameter name ∨ ∃ n, Runs owner n ∧ Introduces name n

/-- Whether the body of a function or a class has a statement of a kind that declares a name. -/
def Declares (owner : Node) (statement : Kind) (name : String) : Prop :=
  ∃ n, Runs owner n ∧ n.kind = statement ∧ ∃ c ∈ n.children, c.text = name

/-- Whether a comprehension has a loop over a name. -/
def LoopsOver (comprehension : Node) (name : String) : Prop :=
  ∃ clause ∈ comprehension.children, clause.kind = .forClause ∧
    ∃ left ∈ clause.children, left.role = .left ∧ Targets name left

end Node

open Node

/-! ### Layers -/

/-- What has names of its own around a place. -/
inductive Layer where
  | function (f : Node)
  | classBody (c : Node)
  | comprehension (c : Node)

/-- Whether a node is what the first loop of a comprehension goes over, which is evaluated outside of it. -/
def isFirstIterable (comprehension? : Option Node) (clause n : Node) : Bool :=
  clause.kind = .forClause && n.role = .right && comprehension?.any fun c =>
    c.kind.isComprehension && c.children.find? (·.kind = .forClause) = some clause

/-- The layers around a node that stands along a path, innermost first. -/
def layersOn : List Node → Node → List Layer
  | [], _ => []
  | parent :: path, n =>
    let around := layersOn path parent
    if (parent.kind = .functionDefinition || parent.kind = .lambda) && n.role = .body then .function parent :: around
    else if parent.kind = .classDefinition && n.role = .body then .classBody parent :: around
    else if parent.kind.isComprehension then .comprehension parent :: around
    else if isFirstIterable path.head? parent n then around.tail
    else around

/-! ### Looking up -/

/-- Whether a name that is looked up through layers outward is a local of a function or the variable of a
comprehension. -/
def Resolves (name : String) : List Layer → Prop
  | [] => False
  | .function f :: outer =>
    ¬ f.Declares .globalStatement name ∧
      (f.Binds name ∧ ¬ f.Declares .nonlocalStatement name ∨ Resolves name outer)
  | .comprehension c :: outer => c.LoopsOver name ∨ Resolves name outer
  | .classBody _ :: outer => Resolves name outer

/-- Whether a class has a name to itself: one that it binds, or declares global. -/
def Layer.Keeps (name : String) : Layer → Prop
  | .classBody c =>
    c.Declares .globalStatement name ∨ c.Binds name ∧ ¬ c.Declares .nonlocalStatement name
  | _ => False

/-- Whether a name that is read in layers is a local of a function or the variable of a comprehension. -/
def ReadsLocal (name : String) (layers : List Layer) : Prop :=
  (∀ l ∈ layers.head?, ¬ l.Keeps name) ∧ Resolves name layers

/-! ### Reading -/

/-- Whether a name that is a part of a node is bound, declared or given there, and not read. -/
def Kind.writes (parent : Kind) (role : Role) : Bool :=
  match parent with
  | .functionDefinition => role = .name
  | .classDefinition => role = .name
  | .keywordArgument => role = .name
  | .defaultParameter => role = .name
  | .typedDefaultParameter => role = .name
  | .named => role = .name
  | .typedParameter => role ≠ .type
  | .assignment => role = .left
  | .forStatement => role = .left
  | .forClause => role = .left
  | .parameters => true
  | .lambdaParameters => true
  | .dictionarySplatPattern => true
  | .asPatternTarget => true
  | .deleteStatement => true
  | .globalStatement => true
  | .nonlocalStatement => true
  | k => k.isPattern

/-- Whether a name below `parent` is read there: it is not bound there, no part of an import, not the name of an
attribute, and not called. -/
structure IsRead (parent n : Node) : Prop where
  read : parent.kind.writes n.role = false
  path : parent.kind ≠ .dottedName
  renamed : parent.kind ≠ .aliasedImport
  member : ¬ (parent.kind = .attribute ∧ n.role = .attribute)
  callee : ¬ (parent.kind = .call ∧ n.role = .function)

end Vetting.Python
