import Vetting.Denylist
import Vetting.Screening.Alias
import Vetting.Screening.Locality

/-!
The screening of a syntax tree: every place in it is looked at with the denylist, and the findings are
given in the order of their places.
-/

namespace Vetting.Screening

open Python

/-- What the places of a program are looked at with. -/
structure Context where
  denylist : Denylist
  aliases : List Alias

def forbiddenModule (message : String) (n : Node) : Finding :=
  .placed .error "forbidden-module" message n.place

def forbiddenCallable (message : String) (n : Node) : Finding :=
  .placed .error "forbidden-callable" message n.place

def forbiddenReference (message : String) (n : Node) : Finding :=
  .placed .error "forbidden-reference" message n.place

def forbiddenAttribute (message : String) (n : Node) : Finding :=
  .placed .critical "forbidden-attribute" message n.place

/-! ### Imports -/

def importFindings (d : Denylist) (statement : Node) : List Finding :=
  ((importedNames statement).map fetched).filterMap fun module =>
    if d.forbidsModule module.text then
      some (forbiddenModule ("import of forbidden module '" ++ module.text ++ "'") module)
    else none

/-- The members of a module are looked at only when the module itself is not forbidden. -/
def fromImportFindings (d : Denylist) (statement : Node) : List Finding :=
  match sourceModule? statement with
  | none => []
  | some module =>
    if d.forbidsModule module.text then
      [forbiddenModule ("import from forbidden module '" ++ module.text ++ "'") module]
    else
      ((importedNames statement).map fetched).filterMap fun member =>
        let qualified := module.text ++ "." ++ member.text
        if d.forbidsCallable qualified then
          some (forbiddenCallable ("import of forbidden callable '" ++ qualified ++ "'") member)
        else none

/-! ### Calls -/

/-- The callables that fetch an attribute by its name. -/
def reflectiveAccessors : List String := ["getattr", "setattr", "delattr"]

/-- The callables that import a module by its name. -/
def dynamicImporters : List String := ["__import__", "importlib.import_module"]

/-- The arguments of a call that are not given by keyword. -/
def positionalArguments (call : Node) : List Node :=
  match call.child? .arguments with
  | some arguments => arguments.children.filter (·.kind ≠ .keywordArgument)
  | none => []

/-- The text between the quotes of a literal that has no replacement fields. -/
def plainString? (n : Node) : Option String :=
  if n.kind = .string && n.children.all fun c => c.kind = .stringStart || c.kind = .stringContent then
    some (String.join ((n.children.filter (·.kind = .stringContent)).map (·.text)))
  else none

/-- A forbidden name that a callee is known by: what it stands for is looked at before what it is written
as. -/
def forbiddenCallee? (c : Context) (written : String) : Option String :=
  [Alias.resolve c.aliases written, written].find? c.denylist.forbidsCallable

/-- Whether a callee is one of some callables, as it is written or as what it stands for. -/
def isOneOf (c : Context) (written : String) (names : List String) : Bool :=
  names.contains (Alias.resolve c.aliases written) || names.contains written

def reflectiveFinding? (d : Denylist) (argument : Node) : Option Finding :=
  match plainString? argument with
  | some name =>
    if d.forbidsAttribute name then
      some (forbiddenAttribute ("reflective access to forbidden attribute '" ++ name ++ "'") argument)
    else none
  | none => none

def dynamicImportFinding? (d : Denylist) (argument : Node) : Option Finding :=
  match plainString? argument with
  | some name =>
    if d.forbidsModule name then
      some (forbiddenModule ("dynamic import of forbidden module '" ++ name ++ "'") argument)
    else none
  | none => none

/-- What is found at a call of a dotted name: the callee itself, an attribute fetched by its name, and a
module imported by its name. -/
def callFindings (c : Context) (call : Node) : List Finding :=
  match call.child? .function with
  | none => []
  | some function =>
    match dottedName? function with
    | none => []
    | some written =>
      let arguments := positionalArguments call
      let callee := (forbiddenCallee? c written).map fun name =>
        forbiddenCallable ("call to forbidden callable '" ++ name ++ "'") function
      let reflective :=
        if isOneOf c written reflectiveAccessors then arguments[1]?.bind (reflectiveFinding? c.denylist)
        else none
      let dynamic :=
        if isOneOf c written dynamicImporters then arguments[0]?.bind (dynamicImportFinding? c.denylist)
        else none
      callee.toList ++ reflective.toList ++ dynamic.toList

/-! ### Names -/

def attributeFindings (d : Denylist) (n : Node) : List Finding :=
  match n.child? .attribute with
  | some name =>
    if d.forbidsAttribute name.text then
      [forbiddenAttribute ("access to forbidden attribute '" ++ name.text ++ "'") name]
    else []
  | none => []

/-- Whether a name is looked at with the node that it is part of: as the name of an attribute, or in an
import. -/
def isPartOfParent (parent n : Node) : Bool :=
  match parent.kind with
  | .attribute => n.role = .attribute
  | .dottedName => true
  | .aliasedImport => true
  | .importStatement => true
  | .importFrom => true
  | _ => false

/-- A callee is looked at with its call. -/
def isCallee (parent n : Node) : Bool := parent.kind = .call && n.role = .function

/-- What is found at a name. A forbidden built-in is found where it is read and is no local. -/
def nameFindings (d : Denylist) (parent : Node) (functions : List Node) (n : Node) : List Finding :=
  if isPartOfParent parent n then []
  else if d.forbidsAttribute n.text then
    [forbiddenAttribute ("reference to forbidden name '" ++ n.text ++ "'") n]
  else if !d.forbidsCallable n.text || n.text.toList.contains '.' then []
  else if isCallee parent n || isBindingSite parent n || isLocal n.text functions then []
  else [forbiddenReference ("reference to forbidden callable '" ++ n.text ++ "'") n]

/-! ### Whole programs -/

/-- What is found at a spot. -/
def spotFindings (c : Context) (s : Spot) : List Finding :=
  match s.node.kind with
  | .importStatement => importFindings c.denylist s.node
  | .importFrom => fromImportFindings c.denylist s.node
  | .call => callFindings c s.node
  | .attribute => attributeFindings c.denylist s.node
  | .identifier =>
    match s.parent? with
    | some parent => nameFindings c.denylist parent s.functions s.node
    | none => []
  | _ => []

/-- The order of findings by their places; a finding without a place comes first. -/
def comesBefore (a b : Finding) : Bool :=
  match a.location, b.location with
  | none, _ => true
  | some _, none => false
  | some p, some q => (p.compare q).isLE

/-- What is found in a program, place by place. -/
def findings (d : Denylist) (root : Node) : List Finding :=
  let c : Context := ⟨d, Alias.ofTree root⟩
  ((spots root).flatMap (spotFindings c)).mergeSort comesBefore

end Vetting.Screening
