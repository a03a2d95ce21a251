import Vetting.Python.Tree

/-!
Which names are local. A name that a function binds in its own parameters or body is its own, so that
reading it does not read the built-in of that name. Bindings of modules and classes do not count: they
are read after the built-in has been.
-/

namespace Vetting.Screening

open Python

/-- Whether a node is a function or a lambda. -/
def isFunction (n : Node) : Bool := n.kind = .functionDefinition || n.kind = .lambda

/-- A node of a tree, with what is around it. -/
structure Spot where
  node : Node
  parent? : Option Node
  /-- The functions in whose bodies the node is, innermost first. -/
  functions : List Node

/-- The functions around a child of a node. Only what is in a function's body is inside the function. -/
def functionsAround (functions : List Node) (parent child : Node) : List Node :=
  if isFunction parent && child.role = .body then parent :: functions else functions

mutual

/-- The spots of a tree, each before those below it. -/
def spotsFrom (parent? : Option Node) (functions : List Node) : Node → List Spot
  | .mk k r p t c =>
    ⟨.mk k r p t c, parent?, functions⟩ :: spotsBelow (.mk k r p t c) functions c
termination_by structural n => n

def spotsBelow (parent : Node) (functions : List Node) : List Node → List Spot
  | [] => []
  | n :: rest =>
    spotsFrom (some parent) (functionsAround functions parent n) n ++ spotsBelow parent functions rest
termination_by structural ns => ns

end

/-- The spots of a whole program. -/
def spots (root : Node) : List Spot := spotsFrom none [] root

/-- Whether a name below `parent` is bound there, and not read. -/
def isBindingSite (parent n : Node) : Bool :=
  match parent.kind with
  | .functionDefinition => n.role = .name
  | .classDefinition => n.role = .name
  | .keywordArgument => n.role = .name
  | .defaultParameter => n.role = .name
  | .typedDefaultParameter => n.role = .name
  | .assignment => n.role = .left
  | .forStatement => n.role = .left
  | .forClause => n.role = .left
  | .parameters => true
  | .lambdaParameters => true
  | .typedParameter => true
  | .listSplatPattern => true
  | .dictionarySplatPattern => true
  | .globalStatement => true
  | .nonlocalStatement => true
  | _ => false

/-- How a place in a function treats a name. -/
inductive Mention
  | declaredGlobal
  | declaredNonlocal
  | bound
deriving DecidableEq

mutual

/-- How a name is treated in a part of a function. A nested function or class binds its own name, and
nothing that is inside it counts. -/
def mentionsIn (name : String) (parent : Node) : Node → List Mention
  | .mk k r p t c =>
    match k with
    | .identifier =>
      if t ≠ name then []
      else match parent.kind with
        | .globalStatement => [.declaredGlobal]
        | .nonlocalStatement => [.declaredNonlocal]
        | .keywordArgument => []
        | _ => if isBindingSite parent (.mk k r p t c) then [.bound] else []
    | .functionDefinition => if c.any fun n => n.role = .name && n.text = name then [.bound] else []
    | .classDefinition => if c.any fun n => n.role = .name && n.text = name then [.bound] else []
    | .lambda => []
    | _ => mentionsBelow name (.mk k r p t c) c
termination_by structural n => n

def mentionsBelow (name : String) (parent : Node) : List Node → List Mention
  | [] => []
  | n :: rest => mentionsIn name parent n ++ mentionsBelow name parent rest
termination_by structural ns => ns

end

/-- How the parameters and the body of a function treat a name. -/
def mentions (name : String) (function : Node) : List Mention :=
  (function.childrenAs .parameters ++ function.childrenAs .body).flatMap (mentionsIn name function)

/-- Whether a name read inside functions, innermost first, is a local of one of them. A global declaration
settles that it is not; a nonlocal declaration sends it outward. -/
def isLocal (name : String) : List Node → Bool
  | [] => false
  | function :: outer =>
    let found := mentions name function
    if found.contains .declaredGlobal then false
    else if found.contains .declaredNonlocal then isLocal name outer
    else if found.contains .bound then true
    else isLocal name outer

end Vetting.Screening
