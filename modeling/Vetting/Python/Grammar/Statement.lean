import Vetting.Python.Grammar.Expression

/-!
The grammar of statements and blocks. A block is made of the lines that are indented at least as far as
its first line; lines that do not fit in exactly are noted as offences.
-/

namespace Vetting.Python.Grammar

open Parse Node

variable (rules : Rules)

/-! ### Names of modules -/

/-- A dotted path, whose text is the source text with everything between its names. -/
def dottedName : Parse Node := do
  let first ← expectName
  let step : Parse (Option (List Char × Node)) := do
    let point ← peek
    if ← accept .point then
      let name ← expectName
      return some (point.gap ++ '.' :: name.gap ++ name.text, identifierOf name)
    else return none
  let more ← many step
  let text := String.ofList (first.text ++ more.flatMap (·.1))
  return .mk .dottedName .part first.place text (identifierOf first :: more.map (·.2))

/-- What a name is imported as. -/
def aliased (target : Node) : Parse Node := do
  if ← acceptWord .as_ then
    let newName ← identifier
    return branch .aliasedImport target.place [target.as .name, newName.as .newName]
  else return target

def importedName : Parse Node := do return (← aliased (← dottedName)).as .name

/-- Imported names outside of parentheses. A comma behind the last is an offence. -/
def importList : Parse (List Node) := do
  let (names, trailing) ← items importedName endsList
  let t ← peek
  if trailing then note (.placed (.unexpectedToken "Newline") t.place)
  return names

def importStatement : Parse Node := do
  let t ← expectWord .import_
  return branch .importStatement t.place (← importList)

/-- The names of a from-import, which may stand in parentheses. -/
def fromList : Parse (List Node) := do
  if ← accept .openParen then
    let (names, _) ← items importedName fun t => t.isMark .closeParen
    let _ ← expect .closeParen
    return names
  else importList

/-- Names that are imported from a module are no paths. -/
def checkPlain (names : List Node) : Parse Unit := do
  let target (n : Node) : Node := (n.child? .name).getD n
  match names.find? fun n => 1 < (target n).children.length with
  | some n => note (.placed (.unexpectedToken "'.'") n.place)
  | none => pure ()

def importFrom : Parse Node := do
  let t ← expectWord .from_
  let first ← peek
  if first.isName && first.spelling = "__future__" then
    let _ ← next
    let _ ← expectWord .import_
    return branch .futureImport t.place (← fromList)
  let dots ← many do
    let d ← peek
    if d.isMark .point || d.isMark .ellipsis then
      let _ ← next
      return some d
    else return none
  let source ←
    if dots.isEmpty then dottedName
    else if (← peek).isName then do pure (branch .relativeImport first.place [← dottedName])
    else pure (branch .relativeImport first.place [])
  let _ ← expectWord .import_
  let star ← peek
  if ← accept .star then
    return branch .importFrom t.place
      [source.as .moduleName, leaf .wildcardImport star.place "*"]
  let names ← fromList
  checkPlain names
  return branch .importFrom t.place (source.as .moduleName :: names)

/-! ### Assignments -/

def valueOrYield : Parse Node := do
  if (← peek).isWord .yield_ then yieldExpression rules else rules .list

/-- An assignment whose first target has been read; each value but the last is a target too. -/
def assignmentFrom : Nat → Node → Parse Node
  | 0, _ => fail
  | n + 1, first => do
    let left ← asTarget first
    let _ ← expect .equal
    let value ← valueOrYield rules
    if (← peek).isMark .equal then
      let right ← assignmentFrom n value
      return branch .assignment left.place [left.as .left, right.as .right]
    else return branch .assignment left.place [left.as .left, value.as .right]

/-- A statement that starts with an expression. -/
def expressionStatement : Parse Node := do
  if (← peek).isWord .yield_ then
    let value ← yieldExpression rules
    return branch .expressionStatement value.place [value]
  let first ← rules .list
  let t ← peek
  if t.isMark .equal then
    return branch .expressionStatement first.place [← assignmentFrom rules (← bound) first]
  else if t.isMark .augmented then
    let left ← asTarget first
    let _ ← next
    let value ← valueOrYield rules
    return branch .expressionStatement first.place
      [branch .augmentedAssignment first.place [left.as .left, value.as .right]]
  else if t.isMark .colon then
    let left ← asTarget first
    let _ ← next
    if left.kind = .patternList || left.kind = .listSplatPattern then
      note (.placed (.unexpectedToken "':'") t.place)
    let type ← hint rules
    let value ← if ← accept .equal then do pure [(← valueOrYield rules).as .right] else pure []
    return branch .expressionStatement first.place
      [branch .assignment first.place (left.as .left :: type.as .type :: value)]
  else return branch .expressionStatement first.place [first]

/-! ### Statements of the older dialect -/

/-- Whether a token behind `print` makes it the statement of the older dialect: it starts an expression
and cannot go on one. -/
def printsNext (t third : Token) : Bool :=
  match t.kind with
  | .name => true
  | .number => true
  | .string _ => true
  | .symbol s => [Symbol.openBrace, .tilde, .ellipsis, .shiftRight].contains s
  | .keyword .not_ => !third.isWord .in_
  | .keyword k => [Keyword.none_, .true_, .false_, .lambda_, .await_].contains k
  | _ => false

def printStatement : Parse Node := do
  let start ← get
  let t ← expectName
  let _ ← accept .shiftRight
  let (values, _) ← items (rules .test) endsList
  let statement := .mk .printStatement .part t.place (← textSince start) values
  noteLegacy statement
  return statement

def execStatement : Parse Node := do
  let t ← expectName
  let code ← if (← peek).isName then identifier else string rules
  noteLegacy (branch .execStatement t.place [code])
  let scope ← if ← acceptWord .in_ then do
      let (scope, _) ← items (rules .test) endsList
      pure scope
    else pure []
  return branch .execStatement t.place (code :: scope)

/-- Whether a statement may end before a token. -/
def endsStatement (t : Token) : Bool := t.isNewline || t.isMark .semicolon

/-- A statement that starts with a name. In the older dialect two names are no functions. -/
def nameStatement : Parse Node := do
  let t ← peek
  let second ← peekSecond
  if t.spelling = "print" then
    if printsNext second (← peekThird) then printStatement rules
    else if second.isMark .openBracket then
      orElse (do
        let n ← expressionStatement rules
        if endsStatement (← peek) then return n else fail) (printStatement rules)
    else expressionStatement rules
  else if t.spelling = "exec" && (second.isName || second.isString) then execStatement rules
  else expressionStatement rules

/-! ### Simple statements -/

/-- Names behind a declaring word. -/
def declaredNames (kind : Kind) (start : Location) : Parse Node := do
  let (names, trailing) ← items identifier endsList
  if trailing then fail
  return branch kind start names

def returnStatement (start : Location) : Parse Node := do
  if startsExpression (← peek) then return branch .returnStatement start [← rules .list]
  else return branch .returnStatement start []

def deleteStatement (start : Location) : Parse Node := do
  match ← items (rules .bitwise) endsList with
  | ([one], false) => return branch .deleteStatement start [one]
  | (many, _) => return branch .deleteStatement start [branch .expressionList start many]

def raiseStatement (start : Location) : Parse Node := do
  if startsExpression (← peek) then
    let raised ← rules .test
    let t ← peek
    let more ← if ← accept .comma then do
        note (.placed (.unexpectedToken "','") t.place)
        let (more, _) ← items (rules .test) endsList
        pure more
      else pure []
    let cause ← if ← acceptWord .from_ then do pure [← rules .test] else pure []
    return branch .raiseStatement start (raised :: more ++ cause)
  else return branch .raiseStatement start []

def assertStatement (start : Location) : Parse Node := do
  let (parts, trailing) ← items (rules .test) endsList
  if trailing then fail
  if 2 < parts.length then note (.placed (.unexpectedToken "','") start)
  return branch .assertStatement start parts

/-- Whether a name and an equals sign behind `type` make it a statement. -/
def typeAlias : Parse Node := do
  let t ← expectName
  let name ← identifier
  let params ← typeParameters rules
  let left := if params.isEmpty then name else branch .genericType name.place (name :: params)
  let _ ← expect .equal
  let value ← hint rules
  return branch .typeAlias t.place [(branch .type name.place [left]).as .left, value.as .right]

/-- Whether a line that starts with `match` or `case` belongs to that statement: a colon stands outside of
brackets, neither first nor in a function without name. -/
def matchesAhead (first lambda : Bool) : Nat → List Token → Bool
  | _, [] => false
  | depth, t :: rest =>
    match t.kind with
    | .newline => false
    | .endOfText => false
    | .keyword .lambda_ => matchesAhead false (lambda || depth = 0) depth rest
    | .symbol .colon =>
      if depth = 0 && !lambda && !first then true
      else matchesAhead false (lambda && depth ≠ 0) depth rest
    | .symbol s =>
      matchesAhead false lambda
        (if s.isOpening then depth + 1 else if s.isClosing then depth - 1 else depth) rest
    | _ => matchesAhead false lambda depth rest

def startsMatch (c : Cursor) : Bool :=
  match c.tokens with
  | t :: rest =>
    t.isName && (t.spelling = "match" || t.spelling = "case") && matchesAhead true false 0 rest
  | [] => false

/-- A statement without block; `first` tells whether it opens a line. -/
def simpleStatement (first : Bool) : Parse Node := do
  let t ← peek
  match t.word? with
  | some .import_ => importStatement
  | some .from_ => importFrom
  | some .pass_ =>
    let _ ← next
    return leaf .passStatement t.place ""
  | some .break_ =>
    let _ ← next
    return leaf .breakStatement t.place ""
  | some .continue_ =>
    let _ ← next
    return leaf .continueStatement t.place ""
  | some .return_ =>
    let _ ← next
    returnStatement rules t.place
  | some .del_ =>
    let _ ← next
    deleteStatement rules t.place
  | some .raise_ =>
    let _ ← next
    raiseStatement rules t.place
  | some .assert_ =>
    let _ ← next
    assertStatement rules t.place
  | some .global_ =>
    let _ ← next
    declaredNames .globalStatement t.place
  | some .nonlocal_ =>
    let _ ← next
    declaredNames .nonlocalStatement t.place
  | _ =>
    if t.isName then
      if first && t.spelling = "type" && (← peekSecond).isName then typeAlias rules
      else nameStatement rules
    else expressionStatement rules

/-- The statements of one line and its end. -/
def simpleLine (first : Bool) : Parse (List Node) := do
  let head ← simpleStatement rules first
  let more ← many do
    if (← peek).isMark .semicolon then
      let _ ← next
      if (← peek).isNewline then return none
      else return some (← simpleStatement rules false)
    else return none
  expectNewline
  return head :: more

/-! ### Blocks -/

/-- Compares the indentation of a line with that of its block. -/
def checkIndent (indent level : Indentation) (place : Location) : Parse Unit := do
  match indent.compare? level with
  | some .eq => pure ()
  | some _ => note (.placed .unexpectedIndent place)
  | none => note (.placed .inconsistentTabs place)

/-- The statements behind a colon: the rest of the line, or the lines that are indented further. -/
def suite (level : Indentation) : Parse Node := do
  let _ ← expect .colon
  if (← peek).isNewline then
    let _ ← next
    let t ← peek
    match t.kind with
    | .line indent =>
      if level.column < indent.column then
        if indent.compare? level ≠ some .gt then note (.placed .inconsistentTabs t.place)
        rules (.block indent)
      else
        note (.placed .blockExpected t.place)
        return branch .block t.place []
    | _ =>
      note (.placed .blockExpected t.place)
      return branch .block t.place []
  else
    let start ← peek
    return branch .block start.place (← simpleLine rules false)

/-- Opens a further clause of a statement: a line of its block that starts with a certain word. -/
def clause (level : Indentation) (word : Keyword) : Parse (Option Token) := do
  let t ← peek
  match t.kind with
  | .line indent =>
    if level.column ≤ indent.column && (← peekSecond).isWord word then
      let _ ← next
      checkIndent indent level t.place
      return some (← next)
    else return none
  | _ => return none

/-- An `else` clause, if there is one. -/
def elseClause (level : Indentation) : Parse (List Node) := do
  match ← clause level .else_ with
  | some t => return [(branch .elseClause t.place [(← suite rules level).as .body]).as .alternative]
  | none => return []

def ifStatement (level : Indentation) : Parse Node := do
  let t ← expectWord .if_
  let condition ← rules .named
  let body ← suite rules level
  let elifs ← many do
    match ← clause level .elif_ with
    | some t =>
      let condition ← rules .named
      let body ← suite rules level
      return some ((branch .elifClause t.place [condition.as .condition, body.as .body]).as
        .alternative)
    | none => return none
  let final ← elseClause rules level
  return branch .ifStatement t.place
    (condition.as .condition :: body.as .body :: elifs ++ final)

def whileStatement (level : Indentation) : Parse Node := do
  let t ← expectWord .while_
  let condition ← rules .named
  let body ← suite rules level
  let final ← elseClause rules level
  return branch .whileStatement t.place (condition.as .condition :: body.as .body :: final)

/-- The mark of an asynchronous statement. -/
def asyncMarks : Option Token → List Node
  | some t => [leaf .asyncMark t.place "async"]
  | none => []

def startOf (mark : Option Token) (t : Token) : Location := (mark.getD t).place

def forStatement (level : Indentation) (mark : Option Token) : Parse Node := do
  let t ← expectWord .for_
  let start ← peek
  let target : Parse Node := do
    let t ← peek
    if ← accept .star then asTarget (branch .listSplat t.place [← rules .bitwise])
    else asTarget (← rules .bitwise)
  let left := match ← items target fun t => t.isWord .in_ with
    | ([one], false) => one
    | (many, _) => branch .patternList start.place many
  let _ ← expectWord .in_
  let iterated ← rules .list
  let body ← suite rules level
  let final ← elseClause rules level
  return branch .forStatement (startOf mark t)
    (asyncMarks mark ++ left.as .left :: iterated.as .right :: body.as .body :: final)

/-- What an exception is bound to. The older dialect wrote a comma for `as`. -/
def exceptName : Parse (List Node) := do
  let t ← peek
  if ← acceptWord .as_ then
    let newName ← identifier
    return [branch .asPatternTarget newName.place [newName]]
  else if ← accept .comma then
    note (.placed (.unexpectedToken "','") t.place)
    return [← rules .test]
  else return []

/-- The kind and the name of the exceptions that a clause takes. -/
def exceptHead : Parse (List Node) := do
  let caught ← rules .test
  match ← exceptName rules with
  | [] => return [caught.as .value]
  | names => return [(branch .asPattern caught.place (caught.as .value :: names)).as .value]

def exceptClause? (level : Indentation) : Parse (Option Node) := do
  match ← clause level .except_ with
  | none => return none
  | some t =>
    let group ← accept .star
    let head ← if (← peek).isMark .colon && !group then pure [] else exceptHead rules
    let body ← suite rules level
    let kind := if group then Kind.exceptGroupClause else .exceptClause
    return some (branch kind t.place (head ++ [body.as .body]))

def finallyClause (level : Indentation) : Parse (List Node) := do
  match ← clause level .finally_ with
  | some t => return [branch .finallyClause t.place [(← suite rules level).as .body]]
  | none => return []

def tryStatement (level : Indentation) : Parse Node := do
  let t ← expectWord .try_
  let body ← suite rules level
  let handlers ← many (exceptClause? rules level)
  let others ← if handlers.isEmpty then pure [] else elseClause rules level
  let final ← finallyClause rules level
  if handlers.isEmpty && final.isEmpty then fail
  return branch .tryStatement t.place (body.as .body :: handlers ++ others ++ final)

/-- A context and what it is bound to. -/
def withItem : Parse Node := do
  let context ← rules .test
  if ← acceptWord .as_ then
    let target ← rules .bitwise
    let bound := branch .asPatternTarget target.place [target]
    return branch .withItem context.place [branch .asPattern context.place [context.as .value, bound]]
  else return branch .withItem context.place [context]

/-- The contexts up to the colon. Parentheses may stand around all of them. -/
def withItems : Parse (List Node) := do
  let plain : Parse (List Node) := do
    let (all, trailing) ← items (withItem rules) endsList
    if !trailing && (← peek).isMark .colon then return all else fail
  let enclosed : Parse (List Node) := do
    let _ ← expect .openParen
    let (all, _) ← items (withItem rules) fun t => t.isMark .closeParen
    let _ ← expect .closeParen
    return all
  if (← peek).isMark .openParen then orElse plain enclosed else plain

def withStatement (level : Indentation) (mark : Option Token) : Parse Node := do
  let t ← expectWord .with_
  let contexts ← withItems rules
  let body ← suite rules level
  return branch .withStatement (startOf mark t) (asyncMarks mark ++ contexts ++ [body.as .body])

def functionDefinition (level : Indentation) (mark : Option Token) : Parse Node := do
  let t ← expectWord .def_
  let name ← identifier
  let types ← typeParameters rules
  let start ← expect .openParen
  let params ← parameters rules true .closeParen
  let _ ← expect .closeParen
  let result ← if ← accept .arrow then do pure [(← hint rules).as .returnType] else pure []
  let body ← suite rules level
  return branch .functionDefinition (startOf mark t)
    (asyncMarks mark ++ name.as .name :: types
      ++ (branch .parameters start.place params).as .parameters :: result ++ [body.as .body])

def classDefinition (level : Indentation) : Parse Node := do
  let t ← expectWord .class_
  let name ← identifier
  let types ← typeParameters rules
  let start ← peek
  let bases ← if ← accept .openParen then do
      let args ← arguments rules start.place
      if args.kind = .generator then fail
      pure [args.as .superclasses]
    else pure []
  let body ← suite rules level
  return branch .classDefinition t.place (name.as .name :: types ++ bases ++ [body.as .body])

/-- A definition, or another statement that may be asynchronous. -/
def asyncStatement (level : Indentation) : Parse Node := do
  let mark ← expectWord .async_
  let t ← peek
  match t.word? with
  | some .def_ => functionDefinition rules level (some mark)
  | some .for_ => forStatement rules level (some mark)
  | some .with_ => withStatement rules level (some mark)
  | _ => fail

def decorator? (level : Indentation) : Parse (Option Node) := do
  let t ← peek
  if ← accept .atSign then
    let e ← rules .named
    expectNewline
    let l ← peek
    match l.kind with
    | .line indent =>
      let _ ← next
      checkIndent indent level l.place
      return some (branch .decorator t.place [e])
    | _ => fail
  else return none

def decoratedDefinition (level : Indentation) : Parse Node := do
  let start ← peek
  let decorators ← many (decorator? rules level)
  let t ← peek
  let definition ← match t.word? with
    | some .def_ => functionDefinition rules level none
    | some .class_ => classDefinition rules level
    | some .async_ => do
      let mark ← next
      functionDefinition rules level (some mark)
    | _ => fail
  return branch .decoratedDefinition start.place (decorators ++ [definition])

/-- The statements that start on one line. -/
def statements (level : Indentation) : Parse (List Node) := do
  let t ← peek
  match t.word? with
  | some .if_ => return [← ifStatement rules level]
  | some .while_ => return [← whileStatement rules level]
  | some .for_ => return [← forStatement rules level none]
  | some .try_ => return [← tryStatement rules level]
  | some .with_ => return [← withStatement rules level none]
  | some .def_ => return [← functionDefinition rules level none]
  | some .class_ => return [← classDefinition rules level]
  | some .async_ => return [← asyncStatement rules level]
  | _ =>
    if t.isMark .atSign then return [← decoratedDefinition rules level]
    else if startsMatch (← get) then
      note ⟨.unsupportedMatch, none⟩
      abandon
      return []
    else simpleLine rules true

/-- The statements of the next line of a block, if it has another. -/
def line? (level : Indentation) : Parse (Option (List Node)) := do
  let t ← peek
  match t.kind with
  | .line indent =>
    if indent.column < level.column then
      if (indent.compare? level).isNone then note (.placed .inconsistentTabs t.place)
      return none
    else
      let _ ← next
      checkIndent indent level t.place
      if (← peek).isNewline then
        let _ ← next
        return some []
      else return some (← statements rules level)
  | _ => return none

/-- The lines of a block. -/
def block (level : Indentation) : Parse Node := do
  let start ← peek
  let lines ← many (line? rules level)
  return branch .block start.place lines.flatten

/-! ### All rules together -/

/-- One turn of the grammar. -/
def turn : Rules
  | .test => test rules
  | .named => named rules
  | .disjunction => disjunction rules
  | .inversion => inversion rules
  | .bitwise => bitwise rules
  | .factor => factor rules
  | .typeHint => typeHint rules
  | .list => expressionsOf (looseElement rules)
  | .block indent => block rules indent

/-- The grammar, as many turns deep as the first argument says. -/
def rulesOfDepth : Nat → Rules
  | 0, _ => fail
  | depth + 1, goal => turn (rulesOfDepth depth) goal

end Grammar

/-- What the grammar makes of a source text. -/
inductive Parsed where
  /-- A whole text, with the first offence that has been noted on the way. -/
  | tree (root : Node) (offence : Option Offence)
  /-- A text that no program starts with, and where its reading stopped. -/
  | broken (stop : Cursor)

/-- Reads a source text with a table of character names. -/
def parse (isCharacterName : List Char → Bool) (reading : ReturnReading) (text : List Char) : Parsed :=
  let tokens := Lexer.tokens reading text
  let whole : Parse Node := do
    let body ← Grammar.rulesOfDepth (2 * text.length + 8) (.block {})
    match (← Parse.peek).kind with
    | .endOfText => return .branch .module ⟨1, 1⟩ body.children
    | _ => Parse.fail
  match whole { tokens := tokens, bound := text.length + 2, isCharacterName := isCharacterName } with
  | .ok (root, c) => .tree root c.offence
  | .error stop => .broken stop

end Vetting.Python
