import Vetting.Python.Scope

/-!
Placement: statements and expressions that may stand only in certain places, and targets that cannot be
assigned to or deleted. The parts of a statement are looked at in the order in which they are
evaluated, and the first offence counts.
-/

namespace Vetting.Python.Placement

/-- The kind of function around a node. -/
inductive Around
  | none
  | function
  | asyncFunction
deriving DecidableEq

/-- What surrounds a node. -/
structure Surroundings where
  function : Around := .none
  inLoop : Bool := false
  /-- In a comprehension, what surrounds the things that its first clause runs over. -/
  iterable : Option Around := none

/-- How an expression is used. -/
inductive Mode
  | load
  | store
  | delete
  /-- An item of a display or an argument list, where a star may stand. -/
  | item
deriving DecidableEq

/-- What has been seen so far. -/
structure Progress where
  /-- The place of the statement or expression that was looked at last. -/
  place : Location := ⟨1, 1⟩
  /-- Whether the function around gives out values. -/
  yields : Bool := false
  /-- Whether a statement other than an import of features has been seen. -/
  started : Bool := false
  /-- Whether annotations are not evaluated. -/
  futureAnnotations : Bool := false

abbrev Check := StateT Progress (Except Offence)

def refuse (cause : Cause) : Check α := do throw (.placed cause (← get).place)

def refuseAt (cause : Cause) (place : Location) : Check α := throw (.placed cause place)

def moveTo (place : Location) : Check Unit := modify fun s => { s with place := place }

/-- The one name that nothing may be bound to. -/
def fixedName : String := "__debug__"

def checkName (mode : Mode) (name : String) : Check Unit := do
  if name = fixedName then
    match mode with
    | .store => refuse (.cannotAssign name)
    | .delete => refuse (.cannotDelete name)
    | _ => pure ()

/-- What an expression is called in a message. -/
def describe : Kind → String
  | .identifier => "name"
  | .number => "literal"
  | .string => "literal"
  | .concatenatedString => "literal"
  | .ellipsis => "ellipsis"
  | .constant => "literal"
  | .attribute => "attribute"
  | .subscript => "subscript"
  | .call => "function call"
  | .listSplat => "starred"
  | .listSplatPattern => "starred"
  | .tuple => "tuple"
  | .tuplePattern => "tuple"
  | .patternList => "tuple"
  | .expressionList => "tuple"
  | .list => "list"
  | .listPattern => "list"
  | .set => "set display"
  | .dictionary => "dict display"
  | .listComprehension => "list comprehension"
  | .setComprehension => "set comprehension"
  | .dictionaryComprehension => "dict comprehension"
  | .generator => "generator expression"
  | .unary => "operator"
  | .negation => "operator"
  | .binary => "operator"
  | .boolean => "operator"
  | .comparison => "comparison"
  | .conditional => "conditional expression"
  | .lambda => "lambda"
  | .named => "named expression"
  | .await => "await expression"
  | .yield => "yield expression"
  | .yieldFrom => "yield expression"
  | _ => "expression"

/-- The features that can be imported from the future. -/
def futureFeatures : List String := [
  "nested_scopes", "generators", "division", "absolute_import", "with_statement", "print_function",
  "unicode_literals", "generator_stop", "annotations"]

/-- Whether a star stands before the first operand. -/
def isStarred (kind : Kind) : Bool := kind = .listSplat || kind = .listSplatPattern

/-- The places around stars that separate targets: there may be one star, with at most 255 targets on
either side. -/
def checkStars (items : List Node) (place : Location) : Check Unit := do
  let before := items.takeWhile fun n => !isStarred n.kind
  match items.drop before.length with
  | [] => pure ()
  | _ :: behind =>
    if 255 < before.length || 255 < behind.length then refuseAt .tooManyStarred place
    if behind.any fun n => isStarred n.kind then refuse .twoStarred

/-- Whether a node is a sequence of targets. -/
def isSequence : Kind → Bool
  | .tuple => true
  | .list => true
  | .expressionList => true
  | .tuplePattern => true
  | .listPattern => true
  | .patternList => true
  | _ => false

def isStatement : Kind → Bool
  | .expressionStatement => true
  | .returnStatement => true
  | .deleteStatement => true
  | .raiseStatement => true
  | .assertStatement => true
  | .passStatement => true
  | .breakStatement => true
  | .continueStatement => true
  | .globalStatement => true
  | .nonlocalStatement => true
  | .typeAlias => true
  | .importStatement => true
  | .importFrom => true
  | .futureImport => true
  | .ifStatement => true
  | .whileStatement => true
  | .forStatement => true
  | .tryStatement => true
  | .withStatement => true
  | .functionDefinition => true
  | .classDefinition => true
  | _ => false

def isExpression : Kind → Bool
  | .identifier => true
  | .number => true
  | .constant => true
  | .ellipsis => true
  | .string => true
  | .concatenatedString => true
  | .attribute => true
  | .subscript => true
  | .slice => true
  | .call => true
  | .listSplat => true
  | .splatType => true
  | .tuple => true
  | .list => true
  | .set => true
  | .dictionary => true
  | .listComprehension => true
  | .setComprehension => true
  | .dictionaryComprehension => true
  | .generator => true
  | .unary => true
  | .binary => true
  | .comparison => true
  | .negation => true
  | .boolean => true
  | .conditional => true
  | .lambda => true
  | .named => true
  | .await => true
  | .yield => true
  | .yieldFrom => true
  | .expressionList => true
  | _ => false

def isComprehension : Kind → Bool
  | .listComprehension => true
  | .setComprehension => true
  | .dictionaryComprehension => true
  | .generator => true
  | _ => false

/-- Kinds none of whose parts is evaluated. -/
def isInert : Kind → Bool
  | .dottedName => true
  | .importStatement => true
  | .importFrom => true
  | .futureImport => true
  | .globalStatement => true
  | .nonlocalStatement => true
  | .typeParameters => true
  | _ => false

def isAsync (n : Node) : Bool := n.children.any (·.kind = .asyncMark)

/-- Whether a comprehension waits: one of its clauses is asynchronous or its value waits. -/
def waits (n : Node) : Bool :=
  n.children.any (fun c => c.kind = .forClause && isAsync c)
    || (n.childrenAs .body).any fun b => b.preorder.any (·.kind = .await)

/-- What surrounds the parts of a comprehension. -/
def inComprehension (around : Surroundings) (n : Node) : Surroundings :=
  let waiting := waits n && (n.kind = .generator || around.function = .asyncFunction)
  { function := if waiting then .asyncFunction else .function, iterable := some around.function }

/-- What surrounds a child. -/
def surroundingsOf (owner : Node) (around : Surroundings) (role : Role) : Surroundings :=
  match owner.kind, role with
  | .functionDefinition, .body => { function := if isAsync owner then .asyncFunction else .function }
  | .lambda, .body => { function := .function }
  | .classDefinition, .body => {}
  | .forClause, .right =>
    match around.iterable with
    | some outer => { function := outer }
    | none => around
  | .forStatement, .body => { around with inLoop := true }
  | .whileStatement, .body => { around with inLoop := true }
  | _, _ => around

/-- How a child is used. -/
def modeOf (owner : Kind) (mode : Mode) (role : Role) : Mode :=
  match owner, role with
  | .assignment, .left => .store
  | .augmentedAssignment, .left => .store
  | .forStatement, .left => .store
  | .forClause, .left => .store
  | .asPatternTarget, _ => .store
  | .deleteStatement, _ => .delete
  | .named, .name => .store
  | .parenthesized, _ => if mode = .item then .load else mode
  | .parenthesizedPattern, _ => mode
  | .tuple, _ => if mode = .store || mode = .delete then mode else .item
  | .list, _ => if mode = .store || mode = .delete then mode else .item
  | .expressionList, _ => if mode = .store || mode = .delete then mode else .item
  | .set, _ => .item
  | .argumentList, _ => .item
  | .tuplePattern, _ => mode
  | .listPattern, _ => mode
  | .patternList, _ => mode
  | .listSplatPattern, _ => .store
  | .binary, _ => if mode = .item then .item else .load
  | .call, .function => if mode = .item then .item else .load
  | .attribute, .object => if mode = .item then .item else .load
  | .subscript, .value => if mode = .item then .item else .load
  | .type, _ => if mode = .item then .item else .load
  | _, _ => .load

/-- Whether a child is a name that is no expression. A name that an expression binds is a target. -/
def isPlainName (owner : Kind) (role : Role) (kind : Kind) : Bool :=
  owner ≠ .named && Scope.isPlainName owner role kind

/-- Checks a target or a deleted expression itself. -/
def checkTarget (mode : Mode) (n : Node) : Check Unit := do
  let attributeName := ((n.child? .attribute).map Node.text).getD ""
  match mode, n.kind with
  | .store, .identifier => checkName mode n.text
  | .store, .attribute => checkName mode attributeName
  | .store, .subscript => pure ()
  | .store, .parenthesized => pure ()
  | .store, .parenthesizedPattern => pure ()
  | .store, .listSplat => refuse .loneStarredTarget
  | .store, .listSplatPattern => refuse .loneStarredTarget
  | .store, kind =>
    if isSequence kind then checkStars n.children n.place else refuse (.cannotAssign (describe kind))
  | .delete, .identifier => checkName mode n.text
  | .delete, .attribute => checkName mode attributeName
  | .delete, .subscript => pure ()
  | .delete, .parenthesized => pure ()
  | .delete, .binary => refuse (.cannotDelete "expression")
  | .delete, .unary => refuse (.cannotDelete "expression")
  | .delete, kind => if isSequence kind then pure () else refuse (.cannotDelete (describe kind))
  | _, _ => pure ()

/-- Checks an expression that is evaluated, before its parts. -/
def checkExpression (around : Surroundings) (mode : Mode) (n : Node) : Check Unit := do
  moveTo n.place
  match n.kind with
  | .listSplat => if mode ≠ .item then refuse .misplacedStar
  | .splatType => if mode ≠ .item then refuse .misplacedStar
  | .yield =>
    if around.function = .none then refuse (.outsideFunction .yielding)
    modify fun s => { s with yields := true }
  | .yieldFrom =>
    match around.function with
    | .none => refuse (.outsideFunction .delegating)
    | .asyncFunction => refuse .delegationInAsync
    | .function => modify fun s => { s with yields := true }
  | .await => if around.function ≠ .asyncFunction then refuse .awaitOutside
  | _ => pure ()

/-- Checks a statement before its parts. -/
def checkStatement (around : Surroundings) (n : Node) : Check Unit := do
  moveTo n.place
  match Scope.features? n with
  | some names =>
    if (← get).started then refuse .lateFuture
    match names.find? fun f => !futureFeatures.contains f with
    | some f => refuse (.unknownFuture f)
    | none => pure ()
    if names.contains "annotations" then modify fun s => { s with futureAnnotations := true }
  | none => modify fun s => { s with started := true }
  match n.kind with
  | .returnStatement =>
    if around.function = .none then refuse (.outsideFunction .returning)
    if around.function = .asyncFunction && (← get).yields && !n.children.isEmpty then
      refuse .valueFromAsyncGenerator
  | .breakStatement => if !around.inLoop then refuse (.outsideLoop .breaking)
  | .continueStatement => if !around.inLoop then refuse (.outsideLoop .continuing)
  | .importFrom =>
    if around.function ≠ .none && n.children.any (·.kind = .wildcardImport) then
      refuse .starImportInside
  | _ => pure ()
  (Scope.importedNames n).forM (checkName .store)

/-- The target of an augmented assignment is no sequence. -/
def checkAugmented (owner : Node) : Check Unit := do
  let left := (owner.childrenAs .left).flatMap Node.preorder
  match left.find? (·.kind ≠ .parenthesizedPattern) with
  | some left =>
    if isSequence left.kind || isStarred left.kind then refuse (.cannotAssign (describe left.kind))
  | none => pure ()

/-- Names that a parameter list or an argument list may not give to a parameter. -/
def checkParameterName (n : Node) : Check Unit := do
  match n.kind, n.child? .name with
  | .keywordArgument, some name => checkName .store name.text
  | _, _ =>
    match Scope.parameterName? n with
    | some (name, _) => checkName .store name
    | none => pure ()

/-- Whether a statement is a text that documents what it stands in. -/
def isDocumentation (n : Node) : Bool :=
  match n.children with
  | [s] =>
    n.kind = .expressionStatement && (s.kind = .string || s.kind = .concatenatedString)
      && !(s.preorder.any fun m => m.kind = .interpolation
        || (m.kind = .stringStart && m.text.toList.any fun c => c.toLower = 'b' || c.toLower = 'f'))
  | _ => false

/-- Goes through parts in turns; within a turn they come in their own order. -/
def turns (owner : Node) : List (Node → Bool) :=
  match owner.kind with
  | .assignment =>
    [fun c => c.role = .right, fun c => c.role = .left, fun c => c.role = .type]
  | .forStatement =>
    [fun c => c.role = .right, fun c => c.role = .left,
      fun c => c.role ≠ .left && c.role ≠ .right]
  | .named => [fun c => c.role = .value, fun c => c.role = .name]
  | .conditional => [fun c => c.role = .condition, fun c => c.role ≠ .condition]
  | .functionDefinition =>
    [fun c => c.role = .parameters, fun c => c.role = .body, fun c => c.role = .returnType]
  | .classDefinition => [fun c => c.role = .body, fun c => c.role = .superclasses]
  | .interpolation => [fun c => c.kind = .formatSpecifier, fun c => c.kind ≠ .formatSpecifier]
  | kind =>
    if isComprehension kind then
      [fun c => c.kind = .forClause || c.kind = .ifClause, fun c => c.role = .body]
    else [fun _ => true]

/-- Whether a part is left alone. An annotated name in a function needs no type. -/
def isSkipped (owner child : Node) (around : Surroundings) : Bool :=
  isPlainName owner.kind child.role child.kind
    || (owner.kind = .parameters && isStarred child.kind)
    || (owner.kind = .lambdaParameters && isStarred child.kind)
    || (owner.kind = .typedParameter && isStarred child.kind)
    || child.kind = .dictionarySplatPattern
    || (owner.kind = .assignment && child.role = .type && around.function ≠ .none)
    || (owner.kind = .typeAlias && child.role = .left)
    || (owner.kind = .interpolation && child.kind = .named)

/-- Checks a node before its parts. -/
def checkNode (around : Surroundings) (mode : Mode) (n : Node) : Check Unit := do
  if isStatement n.kind then checkStatement around n
  if mode = .store || mode = .delete then checkTarget mode n
  else if isExpression n.kind then checkExpression around mode n
  match n.kind with
  | .augmentedAssignment => checkAugmented n
  | .parameters => n.children.forM checkParameterName
  | .lambdaParameters => n.children.forM checkParameterName
  | .keywordArgument => checkParameterName n
  | .exceptGroupClause => refuse .unsupportedGroup
  | _ => pure ()

mutual

/-- Checks a node and its parts. -/
def check (around : Surroundings) (mode : Mode) : Node → Check Unit
  | .mk kind role place text children => do
    let n := Node.mk kind role place text children
    checkNode around mode n
    if isInert kind then pure ()
    else
      let inner := if isComprehension kind then inComprehension around n else around
      match turns n with
      | [a] => checkParts n inner mode a children
      | [a, b] =>
        checkParts n inner mode a children
        checkParts n inner mode b children
      | [a, b, c] =>
        checkParts n inner mode a children
        checkParts n inner mode b children
        checkParts n inner mode c children
      | _ => pure ()
    if kind = .functionDefinition || kind = .classDefinition then
      checkName .store (Scope.nameOf n)
termination_by structural n => n

/-- Checks the parts of a node that belong to a turn. -/
def checkParts (owner : Node) (around : Surroundings) (mode : Mode) (turn : Node → Bool) :
    List Node → Check Unit
  | [] => pure ()
  | child :: rest => do
    let unread := (child.role = .type || child.role = .returnType) && (← get).futureAnnotations
    if turn child && !unread && !isSkipped owner child around then
      if owner.kind = .asPatternTarget then moveTo child.place
      let inner := surroundingsOf owner around child.role
      let childMode := modeOf owner.kind mode child.role
      let starred := (childMode = .store || childMode = .delete) && isSequence owner.kind
        && isStarred child.kind
      if child.role = .body && (owner.kind = .functionDefinition || owner.kind = .lambda) then
        let outer := (← get).yields
        modify fun s => { s with yields := false }
        check inner childMode child
        modify fun s => { s with yields := outer }
      else if starred && childMode = .store then checkSplat inner child
      else check inner childMode child
    let around := if child.kind = .forClause then { around with iterable := none } else around
    checkParts owner around mode turn rest
termination_by structural ns => ns

/-- Checks a target behind a star. -/
def checkSplat (around : Surroundings) : Node → Check Unit
  | .mk _ role place text children =>
    checkParts (.mk .listSplatPattern role place text children) around .store (fun _ => true) children
termination_by structural n => n

end

/-- Whether everything in a program stands where it may. -/
def checkProgram (root : Node) : Except Offence Unit := do
  let statements := match root.children with
    | first :: rest => if isDocumentation first then rest else first :: rest
    | [] => []
  let _ ← (check {} .load (.branch .module root.place statements)) {}
  return ()

end Vetting.Python.Placement
