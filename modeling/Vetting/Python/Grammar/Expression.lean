import Vetting.Python.Grammar.Cursor
import Vetting.Python.Literal

/-!
The grammar of expressions, targets, parameters and annotations. Each rule is a plain function of the
rules that it comes back to deeper inside; those are asked for by name, as a `Goal`.
-/

namespace Vetting.Python

/-- The rules of the grammar that others come back to. -/
inductive Goal
  /-- An expression. -/
  | test
  /-- An expression that may bind a name. -/
  | named
  /-- An expression without condition and without function of its own. -/
  | disjunction
  /-- The operand of a negation. -/
  | inversion
  /-- An expression of arithmetic and bit operators. -/
  | bitwise
  /-- The operand of a sign. -/
  | factor
  /-- The type of a name. -/
  | typeHint
  /-- One expression or a tuple without parentheses. -/
  | list
  /-- The lines of a block. -/
  | block (indent : Indentation)
deriving DecidableEq

/-- How a goal is read. -/
abbrev Rules := Goal → Parse Node

namespace Grammar

open Parse Node

/-- Whether an expression can start with a token. -/
def startsExpression (t : Token) : Bool :=
  match t.kind with
  | .name => true
  | .number => true
  | .string _ => true
  | .symbol s => [Symbol.openParen, .openBracket, .openBrace, .minus, .plus, .tilde, .ellipsis, .star].contains s
  | .keyword k => [Keyword.none_, .true_, .false_, .not_, .lambda_, .await_, .yield_].contains k
  | _ => false

def endsList (t : Token) : Bool := !startsExpression t

def identifierOf (t : Token) : Node := leaf .identifier t.place t.spelling

def identifier : Parse Node := do return identifierOf (← expectName)

/-! ### Targets -/

/-- What a star may stand before in a target. -/
def splatTarget? : List Node → Option (List Node)
  | [.mk .identifier r p t c] => some [.mk .identifier r p t c]
  | [.mk .attribute r p t c] => some [.mk .attribute r p t c]
  | [.mk .subscript r p t c] => some [.mk .subscript r p t c]
  | _ => none

mutual

/-- An expression taken as the target of an assignment. -/
def target? : Node → Option Node
  | .mk .identifier r p t c => some (.mk .identifier r p t c)
  | .mk .attribute r p t c => some (.mk .attribute r p t c)
  | .mk .subscript r p t c => some (.mk .subscript r p t c)
  | .mk .tuple r p t c => (targets? c).map (.mk .tuplePattern r p t ·)
  | .mk .parenthesized r p t c => (targets? c).map (.mk .parenthesizedPattern r p t ·)
  | .mk .list r p t c => (targets? c).map (.mk .listPattern r p t ·)
  | .mk .expressionList r p t c => (targets? c).map (.mk .patternList r p t ·)
  | .mk .listSplat r p t c => (splatTarget? c).map (.mk .listSplatPattern r p t ·)
  | _ => none
termination_by structural n => n

def targets? : List Node → Option (List Node)
  | [] => some []
  | n :: rest => (target? n).bind fun m => (targets? rest).map (m :: ·)
termination_by structural ns => ns

end

def asTarget (n : Node) : Parse Node :=
  match target? n with
  | some m => pure m
  | none => fail

variable (rules : Rules)

/-! ### Lists of expressions -/

/-- An item in brackets. -/
def element : Parse Node := do
  let t ← peek
  if ← accept .star then return branch .listSplat t.place [← rules .bitwise]
  else rules .named

/-- The clauses of a comprehension, as far as they go. -/
def clause? : Parse (Option Node) := do
  let t ← peek
  let isAsync := t.isWord .async_
  if isAsync || t.isWord .for_ then
    let _ ← next
    if isAsync then
      let _ ← expectWord .for_
    let target : Parse Node := do
      let t ← peek
      if ← accept .star then asTarget (branch .listSplat t.place [← rules .bitwise])
      else asTarget (← rules .bitwise)
    let (targets, trailing) ← items target fun t => t.isWord .in_
    let left := match targets, trailing with
      | [one], false => one
      | many, _ => branch .patternList t.place many
    let _ ← expectWord .in_
    let iterated ← rules .disjunction
    let mark := if isAsync then [leaf .asyncMark t.place "async"] else []
    return some (branch .forClause t.place (mark ++ [left.as .left, iterated.as .right]))
  else if t.isWord .if_ then
    let _ ← next
    return some (branch .ifClause t.place [← rules .disjunction])
  else return none

def startsClause (t : Token) : Bool := t.isWord .for_ || t.isWord .async_

def clauses : Parse (List Node) := many (clause? rules)

/-! ### Arguments and subscripts -/

/-- The joints before the next token count as items of an argument list. -/
def jointsAhead : Parse (List Node) := do
  return (← peek).joints.map fun l => leaf .lineContinuation l "\\"

/-- What the arguments read so far ask of the next. -/
structure ArgumentOrder where
  keyword : Bool := false
  mapping : Bool := false
  names : List String := []

/-- One argument of a call. -/
def argument (order : ArgumentOrder) : Parse (Node × ArgumentOrder) := do
  let t ← peek
  if ← accept .star then
    let value ← rules .test
    if order.mapping then note (.placed .unpackAfterMapping t.place)
    return (branch .listSplat t.place [value], order)
  else if ← accept .doubleStar then
    let value ← rules .test
    return (branch .dictionarySplat t.place [value], { order with keyword := true, mapping := true })
  else if t.isName && (← peekSecond).isMark .equal then
    let name ← identifier
    let _ ← next
    let value ← rules .test
    if order.names.contains name.text then note (.placed (.repeatedKeyword name.text) t.place)
    return (branch .keywordArgument t.place [name.as .name, value.as .value],
      { order with keyword := true, names := name.text :: order.names })
  else
    let value ← rules .named
    if order.keyword then note (.placed .positionalAfterKeyword t.place)
    return (value, order)

/-- An argument list behind its opening mark: the order so far, the children in reverse, and whether it
has been closed. -/
def argumentStep (s : ArgumentOrder × List Node × Bool) :
    Parse (Option (ArgumentOrder × List Node × Bool)) := do
  let (order, seen, closed) := s
  if closed then return none
  let before ← jointsAhead
  let seen := before.reverse ++ seen
  if ← accept .closeParen then return some (order, seen, true)
  let (value, order) ← argument rules order
  let behind ← jointsAhead
  let seen := behind.reverse ++ value :: seen
  if ← accept .comma then return some (order, seen, false)
  else
    let _ ← expect .closeParen
    return some (order, seen, true)

/-- The arguments of a call behind the opening mark. A single comprehension needs no marks of its
own. -/
def arguments (start : Location) : Parse Node := do
  let before ← jointsAhead
  if ← accept .closeParen then return branch .argumentList start before
  let (first, order) ← argument rules {}
  if startsClause (← peek) && first.kind ≠ .listSplat && first.kind ≠ .dictionarySplat
      && first.kind ≠ .keywordArgument then
    let parts ← clauses rules
    let _ ← expect .closeParen
    return branch .generator start (first.as .body :: parts)
  let behind ← jointsAhead
  let seen := behind.reverse ++ first :: before.reverse
  if ← accept .comma then
    let (_, seen, closed) ← iterate (argumentStep rules) (← bound) (order, seen, false)
    if closed then return branch .argumentList start seen.reverse else fail
  else
    let _ ← expect .closeParen
    return branch .argumentList start seen.reverse

/-- What stands in brackets behind a value: one thing, or several as a list. -/
def bundle (start : Location) : List Node × Bool → List Node
  | ([one], false) => [one]
  | (many, _) => [branch .expressionList start many]

/-- One subscript: an item or a slice. -/
def subscript : Parse Node := do
  let t ← peek
  let bound? : Parse (List Node) := do
    let t ← peek
    if t.isMark .colon || t.isMark .comma || t.isMark .closeBracket then return []
    else return [← rules .test]
  let first ← if t.isMark .colon then pure [] else do pure [← element rules]
  let colon ← peek
  if ← accept .colon then
    if first.any fun e => e.kind = .named || e.kind = .listSplat then
      note (.placed (.unexpectedToken "':'") colon.place)
    let upper ← bound?
    let step ← if ← accept .colon then bound? else pure []
    return branch .slice t.place (first ++ upper ++ step)
  else
    match first with
    | [e] => return e
    | _ => fail

/-! ### Atoms -/

/-- What `yield` gives out. -/
def yieldExpression : Parse Node := do
  let t ← expectWord .yield_
  if ← acceptWord .from_ then return branch .yieldFrom t.place [← rules .test]
  else if startsExpression (← peek) then return branch .yield t.place [← rules .list]
  else return branch .yield t.place []

/-- An expression in parentheses, a tuple or a comprehension, behind the opening mark. -/
def parenthesized (start : Location) : Parse Node := do
  if ← accept .closeParen then return branch .tuple start []
  if (← peek).isWord .yield_ then
    let value ← yieldExpression rules
    let _ ← expect .closeParen
    return branch .parenthesized start [value]
  let first ← element rules
  let t ← peek
  if t.isMark .comma then
    let (all, _) ← moreItems first (element rules) fun t => t.isMark .closeParen
    let _ ← expect .closeParen
    return branch .tuple start all
  else if startsClause t then
    let parts ← clauses rules
    let _ ← expect .closeParen
    return branch .generator start (first.as .body :: parts)
  else
    let _ ← expect .closeParen
    if first.kind = .listSplat then note (.placed .misplacedStar first.place)
    return branch .parenthesized start [first]

/-- A list or a comprehension behind the opening mark. -/
def bracketed (start : Location) : Parse Node := do
  if ← accept .closeBracket then return branch .list start []
  let first ← element rules
  if startsClause (← peek) then
    let parts ← clauses rules
    let _ ← expect .closeBracket
    return branch .listComprehension start (first.as .body :: parts)
  else
    let (all, _) ← moreItems first (element rules) fun t => t.isMark .closeBracket
    let _ ← expect .closeBracket
    return branch .list start all

/-- A pair of a dictionary, or a dictionary that is spread. -/
def entry : Parse Node := do
  let t ← peek
  if ← accept .doubleStar then return branch .dictionarySplat t.place [← rules .bitwise]
  let key ← rules .test
  let _ ← expect .colon
  return branch .pair t.place [key, ← rules .test]

/-- A set, a dictionary or a comprehension behind the opening mark. -/
def braced (start : Location) : Parse Node := do
  if ← accept .closeBrace then return branch .dictionary start []
  let stops (t : Token) : Bool := t.isMark .closeBrace
  let t ← peek
  if t.isMark .doubleStar then
    let (all, _) ← items (entry rules) stops
    let _ ← expect .closeBrace
    return branch .dictionary start all
  let first ← element rules
  let colon ← peek
  if first.kind ≠ .listSplat && colon.isMark .colon then
    let _ ← next
    if first.kind = .named then note (.placed (.unexpectedToken "':'") colon.place)
    let pair := branch .pair t.place [first, ← rules .test]
    if startsClause (← peek) then
      let parts ← clauses rules
      let _ ← expect .closeBrace
      return branch .dictionaryComprehension start (pair.as .body :: parts)
    let (all, _) ← moreItems pair (entry rules) stops
    let _ ← expect .closeBrace
    return branch .dictionary start all
  else if startsClause (← peek) then
    let parts ← clauses rules
    let _ ← expect .closeBrace
    return branch .setComprehension start (first.as .body :: parts)
  else
    let (all, _) ← moreItems first (element rules) stops
    let _ ← expect .closeBrace
    return branch .set start all

/-! ### Strings -/

/-- The expression of a field, all of whose tokens are at hand. -/
def fieldExpression (tokens : List Token) : Parse Node := fun c =>
  let whole : Parse Node := do
    let t ← peek
    let value ←
      if t.isWord .yield_ then yieldExpression rules
      else if (← peekSecond).isMark .walrus then rules .named
      else rules .list
    match (← peek).kind with
    | .endOfText => return value
    | _ => fail
  match whole { tokens := tokens, bound := c.bound, isCharacterName := c.isCharacterName } with
  | .ok (value, inner) => .ok (value, { c with offence := c.offence <|> inner.offence })
  | .error inner =>
    let place := (inner.tokens.headD .nothing).place
    .ok (leaf .ellipsis place "",
      { c with offence := c.offence <|> some (.placed (.badField "invalid syntax") place) })

mutual

/-- A part of a formatted literal as a node. -/
def pieceNode : Literal.Piece → Parse Node
  | .text place text => pure (leaf .stringContent place (String.ofList text))
  | .field place exprPlace expr spec => do
    let value ← fieldExpression rules (Lexer.inBrackets exprPlace expr)
    let format ← pieceNodes spec
    let format := match format with
      | [] => []
      | parts => [branch .formatSpecifier place parts]
    return branch .interpolation place (value :: format)
termination_by structural p => p

def pieceNodes : List Literal.Piece → Parse (List Node)
  | [] => pure []
  | p :: rest => do return (← pieceNode p) :: (← pieceNodes rest)
termination_by structural ps => ps

end

/-- One string literal. -/
def string : Parse Node := do
  let t ← next
  let names ← characterNames
  match t.kind with
  | .string literal =>
    let marks := t.text.takeWhile fun c => c ≠ '"' && c ≠ '\''
    let start := leaf .stringStart t.place (String.ofList marks)
    let parts ← match literal.isFormatted, Literal.piecesOf names literal with
      | true, .ok pieces => pieceNodes rules pieces
      | true, .error reason => do
        note (.placed (.badField reason) t.place)
        pure []
      | false, _ => do
        match Literal.fault? names literal.isBytes literal.isRaw (literal.content.length + 1)
            literal.content with
        | some cause => note (.placed cause t.place)
        | none => pure ()
        pure (if literal.content.isEmpty then []
          else [leaf .stringContent literal.contentPlace (String.ofList literal.content)])
    return branch .string t.place (start :: parts)
  | _ => fail

/-- Whether a literal is one of bytes. -/
def isBytesLiteral (n : Node) : Bool :=
  n.children.any fun c => c.kind = .stringStart && c.text.toList.any fun m => m = 'b' || m = 'B'

/-- String literals, which are joined when several stand side by side. -/
def strings : Parse Node := do
  let t ← peek
  let first ← string rules
  let more ← many do
    if (← peek).isString then return some (← string rules) else return none
  if more.isEmpty then return first
  if more.any fun n => isBytesLiteral n != isBytesLiteral first then
    note (.placed .mixedLiterals t.place)
  return branch .concatenatedString t.place (first :: more)

/-! ### Operators -/

def atom : Parse Node := do
  let t ← peek
  match t.kind with
  | .name => identifier
  | .number => do
    let _ ← next
    return leaf .number t.place t.spelling
  | .string _ => strings rules
  | .keyword k =>
    if k = .none_ || k = .true_ || k = .false_ then do
      let _ ← next
      return leaf .constant t.place t.spelling
    else fail
  | .symbol .ellipsis => do
    let _ ← next
    return leaf .ellipsis t.place t.spelling
  | .symbol .openParen => do
    let _ ← next
    parenthesized rules t.place
  | .symbol .openBracket => do
    let _ ← next
    bracketed rules t.place
  | .symbol .openBrace => do
    let _ ← next
    braced rules t.place
  | _ => fail

/-- An attribute, a subscript or, if `calls` holds, a call of an expression. -/
def trailer? (calls : Bool) (n : Node) : Parse (Option Node) := do
  let t ← peek
  if t.isMark .point then
    let _ ← next
    let name ← identifier
    return some (branch .attribute n.place [n.as .object, name.as .attribute])
  else if t.isMark .openBracket then
    let _ ← next
    let start ← peek
    let parts ← items (subscript rules) fun t => t.isMark .closeBracket
    let _ ← expect .closeBracket
    return some (branch .subscript n.place (n.as .value :: bundle start.place parts))
  else if calls && t.isMark .openParen then
    let _ ← next
    let args ← arguments rules t.place
    return some (branch .call n.place [n.as .function, args.as .arguments])
  else return none

def trailers (calls : Bool) (n : Node) : Parse Node := do iterate (trailer? rules calls) (← bound) n

/-- A power whose base has been read. -/
def powerFrom (base : Node) : Parse Node := do
  if ← accept .doubleStar then return branch .binary base.place [base, ← rules .factor]
  else return base

def primary : Parse Node := do
  let t ← peek
  if ← acceptWord .await_ then
    return branch .await t.place [← trailers rules true (← atom rules)]
  else trailers rules true (← atom rules)

def factor : Parse Node := do
  let t ← peek
  if t.isMark .minus || t.isMark .plus || t.isMark .tilde then
    let _ ← next
    return branch .unary t.place [← rules .factor]
  else powerFrom rules (← primary rules)

/-- Operators of one rank, from the left. -/
def chain (marks : List Symbol) (operand : Parse Node) (left : Node) : Parse Node := do
  let step (left : Node) : Parse (Option Node) := do
    match (← peek).mark? with
    | some s =>
      if marks.contains s then
        let _ ← next
        return some (branch .binary left.place [left, ← operand])
      else return none
    | none => return none
  iterate step (← bound) left

def termFrom (left : Node) : Parse Node :=
  chain [.star, .slash, .doubleSlash, .percent, .atSign] (factor rules) left

def term : Parse Node := do termFrom rules (← factor rules)

def sumFrom (left : Node) : Parse Node := do
  chain [.plus, .minus] (term rules) (← termFrom rules left)

def sum : Parse Node := do sumFrom rules (← factor rules)

def shiftFrom (left : Node) : Parse Node := do
  chain [.shiftLeft, .shiftRight] (sum rules) (← sumFrom rules left)

def shift : Parse Node := do shiftFrom rules (← factor rules)

def conjunctionFrom (left : Node) : Parse Node := do
  chain [.ampersand] (shift rules) (← shiftFrom rules left)

def bitConjunction : Parse Node := do
  conjunctionFrom rules (← factor rules)

def exclusiveFrom (left : Node) : Parse Node := do
  chain [.caret] (bitConjunction rules) (← conjunctionFrom rules left)

def exclusive : Parse Node := do exclusiveFrom rules (← factor rules)

/-- An expression of arithmetic and bit operators whose first operand has been read. -/
def bitwiseFrom (left : Node) : Parse Node := do
  chain [.bar] (exclusive rules) (← exclusiveFrom rules left)

def bitwise : Parse Node := do bitwiseFrom rules (← factor rules)

/-- Takes an operator of comparison, if there is one. -/
def comparator? : Parse Bool := do
  let t ← peek
  match t.kind with
  | .symbol s =>
    if [Symbol.less, .greater, .lessEqual, .greaterEqual, .equalEqual, .notEqual,
        .lessGreater].contains s then
      let _ ← next
      return true
    else return false
  | .keyword .in_ =>
    let _ ← next
    return true
  | .keyword .is_ =>
    let _ ← next
    let _ ← acceptWord .not_
    return true
  | .keyword .not_ =>
    if (← peekSecond).isWord .in_ then
      let _ ← next
      let _ ← next
      return true
    else return false
  | _ => return false

def comparison : Parse Node := do
  let first ← bitwise rules
  let more ← many do
    if ← comparator? then return some (← bitwise rules) else return none
  if more.isEmpty then return first else return branch .comparison first.place (first :: more)

def inversion : Parse Node := do
  let t ← peek
  if ← acceptWord .not_ then return branch .negation t.place [← rules .inversion]
  else comparison rules

def boolean (word : Keyword) (operand : Parse Node) : Parse Node := do
  let first ← operand
  let more ← many do
    if ← acceptWord word then return some (← operand) else return none
  if more.isEmpty then return first else return branch .boolean first.place (first :: more)

def disjunction : Parse Node :=
  boolean .or_ (boolean .and_ (inversion rules))

/-! ### Parameters -/

/-- What the parameters read so far ask of the next. -/
structure ParameterOrder where
  names : List String := []
  any : Bool := false
  positional : Bool := false
  starred : Bool := false
  mapped : Bool := false
  defaulted : Bool := false
  /-- A lone star behind which no parameter has come yet. -/
  pending : Option Location := none

/-- Notes a parameter's name. -/
def ParameterOrder.bind (order : ParameterOrder) (name : Node) : Parse ParameterOrder := do
  if order.names.contains name.text then note (.placed (.duplicateArgument name.text) name.place)
  if order.mapped then note (.placed (.unexpectedToken ("'" ++ name.text ++ "'")) name.place)
  return { order with names := name.text :: order.names, any := true }

/-- A type before which no star may stand. -/
def hint : Parse Node := do
  let t ← peek
  if t.isMark .star then note (.placed (.unexpectedToken "'*'") t.place)
  rules .typeHint

/-- A parameter's type, if parameters may have one. -/
def typeMark (typed : Bool) : Parse (List Node) := do
  if typed then
    if ← accept .colon then return [(← hint rules).as .type]
  return []

/-- A name with its type and default value. -/
def plainParameter (typed : Bool) (order : ParameterOrder) : Parse (Node × ParameterOrder) := do
  let name ← identifier
  let order ← order.bind name
  let order := { order with pending := none }
  let type ← typeMark rules typed
  if ← accept .equal then
    let value ← rules .test
    let kind := if type.isEmpty then Kind.defaultParameter else .typedDefaultParameter
    return (branch kind name.place (name.as .name :: type ++ [value.as .value]),
      { order with defaulted := true })
  else
    if order.defaulted && !order.starred then note (.placed .defaultOrder name.place)
    if type.isEmpty then return (name, order)
    else return (branch .typedParameter name.place (name :: type), order)

/-- A name behind one or two stars. A further star may stand before the type of one that gathers
arguments by place. -/
def splatParameter (typed : Bool) (kind : Kind) (place : Location) (order : ParameterOrder) :
    Parse (Node × ParameterOrder) := do
  let name ← identifier
  let order ← order.bind name
  let splat := branch kind place [name]
  let type ←
    if typed && kind = .listSplatPattern then
      if ← accept .colon then do pure [(← rules .typeHint).as .type] else pure []
    else typeMark rules typed
  if type.isEmpty then return (splat, order)
  else return (branch .typedParameter place (splat :: type), order)

def parameter (typed : Bool) (order : ParameterOrder) : Parse (Node × ParameterOrder) := do
  let t ← peek
  let misplaced (when : Bool) : Parse Unit := do
    if when then note (.placed (.unexpectedToken ("'" ++ t.spelling ++ "'")) t.place)
  if ← accept .slash then
    misplaced (!order.any || order.positional || order.starred || order.mapped)
    return (leaf .positionalMark t.place "/", { order with positional := true })
  else if ← accept .star then
    misplaced (order.starred || order.mapped)
    let order := { order with starred := true }
    if (← peek).isName then splatParameter rules typed .listSplatPattern t.place order
    else return (leaf .keywordMark t.place "*", { order with pending := some t.place })
  else if ← accept .doubleStar then
    misplaced order.mapped
    let (n, order) ← splatParameter rules typed .dictionarySplatPattern t.place order
    return (n, { order with mapped := true })
  else if ← accept .openParen then
    -- The older dialect took tuples apart here.
    misplaced true
    let n ← asTarget (← parenthesized rules t.place)
    if ← accept .equal then
      let value ← rules .test
      return (branch .defaultParameter t.place [n.as .name, value.as .value], order)
    else return (n, order)
  else plainParameter rules typed order

/-- A list of parameters up to a closing mark, which is not taken. -/
def parameters (typed : Bool) (close : Symbol) : Parse (List Node) := do
  let step (s : ParameterOrder × List Node × Bool) :
      Parse (Option (ParameterOrder × List Node × Bool)) := do
    let (order, seen, more) := s
    if !more || (← peek).isMark close then return none
    let (n, order) ← parameter rules typed order
    return some (order, n :: seen, ← accept .comma)
  let (order, seen, _) ← iterate step (← bound) ({}, [], true)
  match order.pending with
  | some place => note (.placed .bareStar place)
  | none => pure ()
  return seen.reverse

def lambda : Parse Node := do
  let t ← expectWord .lambda_
  let start ← peek
  let params ← parameters rules false .colon
  let _ ← expect .colon
  let body ← rules .test
  let params := if params.isEmpty then []
    else [(branch .lambdaParameters start.place params).as .parameters]
  return branch .lambda t.place (params ++ [body.as .body])

/-! ### Whole expressions -/

def test : Parse Node := do
  if (← peek).isWord .lambda_ then lambda rules
  else
    let first ← disjunction rules
    if ← acceptWord .if_ then
      let condition ← disjunction rules
      let _ ← expectWord .else_
      let other ← rules .test
      return branch .conditional first.place
        [first.as .body, condition.as .condition, other.as .alternative]
    else return first

def named : Parse Node := do
  if (← peek).isName && (← peekSecond).isMark .walrus then
    let name ← identifier
    let _ ← next
    return branch .named name.place [name.as .name, (← rules .test).as .value]
  else test rules

/-- An item outside of brackets behind its star. The star takes a name with its attributes and
subscripts; operators and calls come after it. -/
def spread (start : Location) : Parse Node := do
  if (← peek).isName then
    let operand ← trailers rules false (← identifier)
    let whole ← trailers rules true (branch .listSplat start [operand])
    bitwiseFrom rules (← powerFrom rules whole)
  else
    let operand ← trailers rules true (← atom rules)
    if operand.kind = .attribute || operand.kind = .subscript then
      bitwiseFrom rules (← powerFrom rules (branch .listSplat start [operand]))
    else fail

/-- An item outside of brackets. A name that is bound there without any is an offence. -/
def looseElement : Parse Node := do
  let t ← peek
  if ← accept .star then spread rules t.place
  else
    let first ← test rules
    let mark ← peek
    if first.kind = .identifier && mark.isMark .walrus then
      note (.placed (.unexpectedToken "':='") mark.place)
      let _ ← next
      return branch .named first.place [first.as .name, (← rules .test).as .value]
    else return first

/-- One expression, or several as a tuple. -/
def expressionsOf (item : Parse Node) : Parse Node := do
  match ← items item endsList with
  | ([one], false) => return one
  | (many, _) =>
    match many with
    | first :: _ => return branch .expressionList first.place many
    | [] => fail

/-! ### Annotations -/

/-- A type among the arguments of another. -/
def typeArgument : Parse Node := do
  let first ← rules .typeHint
  if ← accept .colon then
    let second ← hint rules
    return branch .type first.place [branch .constrainedType first.place [first, second]]
  else return first

def typeArguments (start : Location) : Parse Node := do
  let args ← items (typeArgument rules) fun t => t.isMark .closeBracket
  let _ ← expect .closeBracket
  return branch .typeArguments start (bundle start args)

/-- What may follow a name with type arguments: an attribute, or another type. -/
def typeTrailer? (n : Node) : Parse (Option Node) := do
  let wrapped := branch .type n.place [n]
  if ← accept .point then return some (branch .memberType n.place [wrapped, ← identifier])
  else if ← accept .bar then return some (branch .unionType n.place [wrapped, ← hint rules])
  else return none

def typeHint : Parse Node := do
  let t ← peek
  let second ← peekSecond
  if t.isMark .star || t.isMark .doubleStar then
    let _ ← next
    if t.isMark .doubleStar then note (.placed (.unexpectedToken "'**'") t.place)
    return branch .type t.place [branch .splatType t.place [← identifier]]
  else if t.isName && second.isMark .openBracket && t.spelling ≠ "print" && t.spelling ≠ "exec" then
    let name ← identifier
    let _ ← next
    let args ← typeArguments rules second.place
    let generic := branch .genericType t.place [name, args]
    return branch .type t.place [← iterate (typeTrailer? rules) (← bound) generic]
  else return branch .type t.place [← test rules]

/-- A parameter of a type: a name, which may have a bound, or one behind stars. -/
def typeParameter : Parse Node := do
  let t ← peek
  if t.isMark .star || t.isMark .doubleStar then
    let _ ← next
    return branch .type t.place [branch .splatType t.place [← identifier]]
  let name := branch .type t.place [← identifier]
  if ← accept .colon then
    return branch .type t.place [branch .constrainedType t.place [name, ← hint rules]]
  else return name

/-- The parameters of a type, if there are any. -/
def typeParameters : Parse (List Node) := do
  let t ← peek
  if ← accept .openBracket then
    let (params, _) ← items (typeParameter rules) fun t => t.isMark .closeBracket
    let _ ← expect .closeBracket
    return [branch .typeParameters t.place params]
  else return []

end Grammar

end Vetting.Python
