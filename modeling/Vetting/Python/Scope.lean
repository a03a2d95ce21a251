import Vetting.Python.Tree
import Vetting.Python.Offence

/-!
Scopes: what the names of a program are in each module, class, function and comprehension, and whether
its declarations of names agree with their uses.
-/

namespace Vetting.Python

inductive ScopeKind
  | module
  | classBody
  | function
  | comprehension
deriving DecidableEq

/-- Where a name of a scope is bound, as far as it has been settled. -/
inductive Binding
  | unknown
  | global
  | impliedGlobal
  /-- In a scope around. -/
  | free
  /-- Here, for a scope inside. -/
  | cell
deriving DecidableEq

/-- A way in which a scope uses a name. -/
inductive Usage
  | global
  | nonlocal
  | used
  | assigned
  | imported
  | annotated
  | parameter
  | annotatedParameter
  /-- Bound by the clause of a comprehension. -/
  | iterated
  /-- Bound by an expression within a comprehension. -/
  | boundInComprehension
deriving DecidableEq

/-- What is known of one name in a scope. -/
structure Entry where
  name : String
  binding : Binding := .unknown
  referenced : Bool := false
  assigned : Bool := false
  annotated : Bool := false
  parameter : Bool := false
  iterated : Bool := false
  boundInComprehension : Bool := false

namespace Entry

def isBound (e : Entry) : Bool := e.assigned || e.parameter || e.iterated

def isGlobal (e : Entry) : Bool := e.binding = .global || e.binding = .impliedGlobal

/-- Adds a usage. -/
def mark (e : Entry) : Usage → Entry
  | .global => { e with binding := .global }
  | .nonlocal => { e with binding := .free }
  | .used => { e with referenced := true }
  | .assigned => { e with assigned := true }
  | .imported => { e with assigned := true }
  | .annotated => { e with assigned := true, annotated := true }
  | .parameter => { e with parameter := true }
  | .annotatedParameter => { e with parameter := true, annotated := true }
  | .iterated => { e with iterated := true }
  | .boundInComprehension => { e with assigned := true, boundInComprehension := true }

/-- What speaks against declaring the name from here on. -/
def earlier? (e : Entry) : Option EarlierUse :=
  if e.parameter then some .parameter
  else if e.referenced then some .used
  else if e.annotated then some .annotated
  else if e.assigned then some .assigned
  else none

end Entry

/-- A scope with the scopes inside it. -/
inductive Scope where
  | mk (kind : ScopeKind) (entries : List Entry) (inner : List Scope)

/-- A scope that is still being read; its entries and inner scopes are in reverse. -/
structure OpenScope where
  kind : ScopeKind
  entries : List Entry := []
  inner : List Scope := []

def OpenScope.close (s : OpenScope) : Scope := .mk s.kind s.entries.reverse s.inner.reverse

namespace Scope

/-! ### Collecting names -/

/-- The open scopes, innermost first, and the name of the class around. -/
structure Collector where
  scopes : List OpenScope
  className : Option String := none
  /-- Whether annotations are not evaluated. -/
  futureAnnotations : Bool := false

abbrev Collect := StateT Collector (Except Offence)

/-- A private name of a class bears the name of the class. -/
def mangle (className : Option String) (name : String) : String :=
  match className with
  | none => name
  | some c =>
    let isPrivate := ['_', '_'].isPrefixOf name.toList
      && !(['_', '_'].isPrefixOf name.toList.reverse) && !name.toList.contains '.'
    let bare := c.toList.dropWhile (· = '_')
    if isPrivate && !bare.isEmpty then "_" ++ String.ofList bare ++ name else name

/-- Whether a declaration comes after other uses of its name. -/
def checkDeclared (name : String) (usage : Usage) (place : Location) (e : Entry) :
    Except Offence Unit :=
  let late (d : Declaration) : Except Offence Unit :=
    match e.earlier? with
    | some use => .error (.placed (.lateDeclaration name use d) place)
    | none => .ok ()
  match usage with
  | .global => if e.isGlobal then .ok () else late .global
  | .nonlocal => late .nonlocal
  | _ => .ok ()

/-- Adds a usage to the entry of a name; the entry is made if there is none. -/
def markEntry (name : String) (usage : Usage) (place : Location) :
    List Entry → Except Offence (List Entry)
  | [] => .ok [Entry.mark { name := name } usage]
  | e :: rest =>
    if e.name = name then do
      checkDeclared name usage place e
      let e := e.mark usage
      if e.iterated && e.assigned then throw (.placed .bindsInIterable place)
      return e :: rest
    else do return e :: (← markEntry name usage place rest)

def register (name : String) (usage : Usage) (place : Location) : Collect Unit := fun c =>
  let name := mangle c.className name
  match c.scopes with
  | [] => .ok ((), c)
  | s :: outer =>
    if usage = .nonlocal && outer.isEmpty && !(s.entries.any (·.name = name)) then
      .error (.placed (.nonlocalAtTop name) place)
    else do
      let entries ← markEntry name usage place s.entries
      return ((), { c with scopes := { s with entries := entries } :: outer })

def enter (kind : ScopeKind) : Collect Unit := fun c =>
  .ok ((), { c with scopes := { kind := kind } :: c.scopes })

def leave : Collect Unit := fun c =>
  match c.scopes with
  | s :: t :: outer => .ok ((), { c with scopes := { t with inner := s.close :: t.inner } :: outer })
  | _ => .ok ((), c)

def currentKind : Collect ScopeKind := do
  return match (← get).scopes with
    | s :: _ => s.kind
    | [] => .module

/-- Collects in the scope around the current one. -/
def outside (action : Collect Unit) : Collect Unit := do
  match (← get).scopes with
  | s :: outer =>
    modify fun c => { c with scopes := outer }
    action
    modify fun c => { c with scopes := s :: c.scopes }
  | [] => action

/-- How an expression is used. -/
inductive Context
  | load
  | store
  | delete
  /-- A target of a comprehension. -/
  | iterate
  /-- What a comprehension runs over. -/
  | iterated
deriving DecidableEq

def Context.inIterable (c : Context) : Context := if c = .iterated then .iterated else .load

def registerName (context : Context) (name : String) (place : Location) : Collect Unit := do
  match context with
  | .delete =>
    register name .assigned place
    register name .used place
  | .store => register name .assigned place
  | .iterate => register name .iterated place
  | .load =>
    register name .used place
    if name = "super" && (← currentKind) = .function then register "__class__" .used place
  | .iterated => register name .used place

/-- The name that an expression binds on its way. -/
def registerBound (name : Node) : Collect Unit := do
  let usage := if (← currentKind) = .comprehension then Usage.boundInComprehension else .assigned
  register name.text usage name.place

/-- What an import binds; of a path its first name. -/
def importedName (n : Node) : String :=
  match n.child? .newName with
  | some newName => newName.text
  | none =>
    match n.children with
    | first :: _ => first.text
    | [] => n.text

/-- The name and usage of a parameter. -/
def parameterName? (n : Node) : Option (String × Usage) :=
  let inner (m : Node) : String := if m.kind = .identifier then m.text else
    match m.children with
    | first :: _ => first.text
    | [] => ""
  match n.kind, n.children with
  | .identifier, _ => some (n.text, .parameter)
  | .listSplatPattern, _ => some (inner n, .parameter)
  | .dictionarySplatPattern, _ => some (inner n, .parameter)
  | .defaultParameter, first :: _ => some (first.text, .parameter)
  | .typedDefaultParameter, first :: _ => some (first.text, .annotatedParameter)
  | .typedParameter, first :: _ => some (inner first, .annotatedParameter)
  | _, _ => none

/-- Enters the scope of a function with its parameters. -/
def enterFunction (owner : Node) : Collect Unit := do
  enter .function
  match owner.child? .parameters with
  | some params =>
    params.children.forM fun p =>
      match parameterName? p with
      | some (name, usage) => register name usage p.place
      | none => pure ()
  | none => pure ()

/-- The features that a statement asks for, if it imports from the module of features. A relative path to
a module of that name counts as well. -/
def features? (n : Node) : Option (List String) :=
  let names (ns : List Node) : List String := ns.map fun c => ((c.child? .name).getD c).text
  match n.kind, n.child? .moduleName with
  | .futureImport, _ => some (names n.children)
  | .importFrom, some source =>
    if source.kind = .relativeImport && source.children.any (·.text = "__future__") then
      some (names (n.children.filter fun c => c.role = .name || c.kind = .wildcardImport))
    else none
  | _, _ => none

/-- The names that an import binds. -/
def importedNames (n : Node) : List String :=
  match n.kind with
  | .importStatement => n.children.map importedName
  | .futureImport => n.children.map importedName
  | .importFrom => (n.childrenAs .name).map importedName
  | _ => []

def nameOf (n : Node) : String := ((n.child? .name).map Node.text).getD ""

/-- What is done before the children of a node. -/
def openNode (n : Node) : Collect Unit := do
  match n.kind with
  | .functionDefinition => register (nameOf n) .assigned n.place
  | .listComprehension => enter .comprehension
  | .setComprehension => enter .comprehension
  | .dictionaryComprehension => enter .comprehension
  | .generator => enter .comprehension
  | .globalStatement => n.children.forM fun c => register c.text .global n.place
  | .nonlocalStatement => n.children.forM fun c => register c.text .nonlocal n.place
  | _ =>
    (importedNames n).forM fun name => register name .imported n.place
    if ((features? n).getD []).contains "annotations" then
      modify fun c => { c with futureAnnotations := true }

/-- What is done behind the children of a node. -/
def closeNode (n : Node) : Collect Unit := do
  match n.kind with
  | .listComprehension => leave
  | .setComprehension => leave
  | .dictionaryComprehension => leave
  | .generator => leave
  | .classDefinition => register (nameOf n) .assigned n.place
  | .named =>
    match n.child? .name with
    | some name => registerBound name
    | none => pure ()
  | _ => pure ()

/-- Kinds whose children are left alone or have been dealt with when the node is opened. -/
def isClosed : Kind → Bool
  | .dottedName => true
  | .globalStatement => true
  | .nonlocalStatement => true
  | .importStatement => true
  | .importFrom => true
  | .futureImport => true
  | .typeParameters => true
  | _ => false

/-- How a child of a node is used, given how the node is. -/
def contextOf (owner : Kind) (context : Context) (role : Role) : Context :=
  match owner, role with
  | .assignment, .left => .store
  | .augmentedAssignment, .left => .store
  | .forStatement, .left => .store
  | .forClause, .left => .iterate
  | .forClause, .right => .iterated
  | .typeAlias, .left => .store
  | .deleteStatement, _ => .delete
  | .asPatternTarget, _ => .store
  | .attribute, _ => .load
  | .subscript, _ => .load
  | .call, .function => context.inIterable
  | .call, _ => .load
  | .conditional, _ => .load
  | .lambda, .body => context.inIterable
  | .lambda, _ => .load
  | .named, _ => .load
  | .interpolation, _ => .load
  | .listComprehension, _ => .load
  | .setComprehension, _ => .load
  | .dictionaryComprehension, _ => .load
  | .generator, _ => .load
  | _, _ => context

/-- Whether a child is a name that is no expression. -/
def isPlainName (owner : Kind) (role : Role) (kind : Kind) : Bool :=
  kind = .identifier && match owner, role with
    | .attribute, .attribute => true
    | .keywordArgument, .name => true
    | .functionDefinition, .name => true
    | .classDefinition, .name => true
    | .named, .name => true
    | .parameters, _ => true
    | .lambdaParameters, _ => true
    | .typedParameter, _ => true
    | .defaultParameter, .name => true
    | .typedDefaultParameter, .name => true
    | _, _ => false

/-- Whether a star of a parameter list stands before its child. -/
def isSplatParameter (owner : Kind) (kind : Kind) : Bool :=
  (kind = .listSplatPattern || kind = .dictionarySplatPattern)
    && (owner = .parameters || owner = .lambdaParameters || owner = .typedParameter)

/-- Whether an assignment to a name bears its type. -/
def annotatesName (owner : Node) (child : Node) : Bool :=
  owner.kind = .assignment && child.role = .left && child.kind = .identifier
    && (owner.child? .type).isSome

mutual

/-- Collects the names of a node. -/
def collect (context : Context) : Node → Collect Unit
  | .mk kind role place text children => do
    let n := Node.mk kind role place text children
    if kind = .identifier then registerName context text place
    else if kind = .named && context = .iterated then throw (.placed .bindsInIterable place)
    else
      openNode n
      if !isClosed kind then collectAll n context true children
      closeNode n
termination_by structural n => n

/-- Collects the names of the children of a node; `first` tells whether no clause of a comprehension
has come yet. -/
def collectAll (owner : Node) (context : Context) (first : Bool) : List Node → Collect Unit
  | [] => pure ()
  | child :: rest => do
    let inner := contextOf owner.kind context child.role
    if isPlainName owner.kind child.role child.kind || isSplatParameter owner.kind child.kind then
      pure ()
    else if annotatesName owner child then register child.text .annotated owner.place
    else if (child.role = .type || child.role = .returnType) && (← get).futureAnnotations then
      pure ()
    else if owner.kind = .interpolation && child.kind = .named then
      -- To the language the name is all, and what follows it is a format.
      registerName .load (nameOf child) child.place
    else if child.role = .body && (owner.kind = .functionDefinition || owner.kind = .lambda) then
      enterFunction owner
      collect inner child
      leave
    else if child.role = .body && owner.kind = .classDefinition then
      let outerName := (← get).className
      enter .classBody
      modify fun c => { c with className := some (nameOf owner) }
      ["__module__", "__qualname__", "__doc__", "__class__"].forM fun name =>
        register name .assigned owner.place
      collect inner child
      leave
      modify fun c => { c with className := outerName }
    else if child.kind = .forClause then collectClause first child
    else collect inner child
    collectAll owner context (first && child.kind ≠ .forClause) rest
termination_by structural ns => ns

/-- Collects the names of a clause of a comprehension. The first clause runs over something that is
evaluated outside. -/
def collectClause (first : Bool) : Node → Collect Unit
  | .mk _ _ _ _ children => collectParts first children
termination_by structural n => n

def collectParts (first : Bool) : List Node → Collect Unit
  | [] => pure ()
  | child :: rest => do
    if child.role = .left then collect .iterate child
    else if child.role = .right then
      if first then outside (collect .iterated child) else collect .iterated child
    else pure ()
    collectParts first rest
termination_by structural ns => ns

end

/-! ### Settling bindings -/

/-- The entries of the scopes around, innermost first. -/
abbrev Around := List (ScopeKind × List Entry)

abbrev Settle := StateT Around (Except Offence)

/-- The binding that a scope around gives to a name. -/
def foundAround? (name : String) : Around → Option Binding
  | [] => none
  | (kind, entries) :: outer =>
    if kind = .module || (kind = .classBody && name ≠ "__class__") then foundAround? name outer
    else
      match entries.find? (·.name = name) with
      | none => foundAround? name outer
      | some e =>
        if e.binding = .global then some .global
        else if e.binding = .impliedGlobal then foundAround? name outer
        else if e.isBound then some .free
        else foundAround? name outer

def updateEntry (name : String) (change : Entry → Entry) (entries : List Entry) : List Entry :=
  entries.map fun e => if e.name = name then change e else e

/-- Carries a name that is bound within a comprehension to the scope that holds it. -/
def carryOut (e : Entry) : Around → Except Offence (Around × Binding)
  | [] => .ok ([], .impliedGlobal)
  | (kind, entries) :: outer => do
    if e.iterated then throw ⟨.rebindsIteration e.name, none⟩
    match kind with
    | .module => return ((kind, entries) :: outer, .impliedGlobal)
    | .classBody => throw ⟨.bindsInClassComprehension, none⟩
    | .function =>
      match entries.find? (·.name = e.name) with
      | some p =>
        let mark (p : Entry) : Entry :=
          if p.binding = .unknown then { p with assigned := true } else p
        return ((kind, updateEntry e.name mark entries) :: outer,
          if p.isGlobal then p.binding else .free)
      | none => return ((kind, entries ++ [{ e with binding := .cell }]) :: outer, .free)
    | .comprehension =>
      let entries ← match entries.find? (·.name = e.name) with
        | some p =>
          if p.iterated then throw ⟨.rebindsIteration e.name, none⟩
          pure (updateEntry e.name (fun p => { p with assigned := true }) entries)
        | none => pure (entries ++ [{ e with binding := .free }])
      let (outer, binding) ← carryOut e outer
      return ((kind, entries) :: outer, binding)

/-- Settles one name of a scope. -/
def settleEntry (kind : ScopeKind) (e : Entry) : Settle Unit := fun around =>
  if e.boundInComprehension && kind = .comprehension then do
    let (around, _) ← carryOut e around
    return ((), around)
  else if e.binding = .free && (around.length < 2 || foundAround? e.name around ≠ some .free) then
    .error ⟨.nonlocalUnbound e.name, none⟩
  else .ok ((), around)

mutual

/-- Settles the names of a scope, those of the scopes inside first. -/
def settle : Scope → Settle Unit
  | .mk kind entries inner => do
    modify fun around => (kind, entries) :: around
    settleAll inner
    let entries := match (← get) with
      | (_, entries) :: _ => entries
      | [] => []
    modify fun around => around.drop 1
    entries.forM (settleEntry kind)
termination_by structural s => s

def settleAll : List Scope → Settle Unit
  | [] => pure ()
  | s :: rest => do
    settle s
    settleAll rest
termination_by structural ss => ss

end

/-- Whether the names of a program are used as they are declared. -/
def check (root : Node) : Except Offence Unit := do
  let (_, c) ← (collect .load root) { scopes := [{ kind := .module }] }
  match c.scopes with
  | top :: _ =>
    let _ ← (settle top.close) []
    return ()
  | [] => return ()

end Scope

end Vetting.Python
