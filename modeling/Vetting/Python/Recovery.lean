import Vetting.Python.Grammar.Statement

/-!
Trees of broken texts. Where a reading stopped, the tokens before and behind tell what is reported: a bracket that
is not closed where its statement goes on with a colon, or else a stretch of tokens that nothing can be made of.
-/

namespace Vetting.Python.Breakage

def spellingOf (mark : Symbol) : String :=
  match Symbol.spellings.find? fun (_, s) => s = mark with
  | some (spelling, _) => String.ofList spelling
  | none => ""

def isLine (t : Token) : Bool :=
  match t.kind with
  | .line _ => true
  | _ => false

/-- The tokens since the last statement has started, of the tokens that have been read. -/
def openTokens (before : List Token) : List Token :=
  (before.reverse.takeWhile fun t => !(isLine t) && !t.isMark .semicolon).reverse

/-- Whether a statement, but no expression, can start with a token. -/
def startsStatement (t : Token) : Bool :=
  match t.word? with
  | some k =>
    [Keyword.import_, .from_, .pass_, .break_, .continue_, .return_, .del_, .raise_, .assert_,
      .global_, .nonlocal_, .if_, .while_, .for_, .try_, .with_, .def_, .class_, .async_].contains k
  | none => t.isMark .atSign

/-- Whether an operand ends with a token. -/
def endsOperand (t : Token) : Bool :=
  match t.kind with
  | .name => true
  | .number => true
  | .string _ => true
  | .symbol s => s.isClosing || s = .ellipsis
  | .keyword k => [Keyword.none_, .true_, .false_].contains k
  | _ => false

/-- Drops the last operand of tokens in reverse; `depth` counts closed brackets. -/
def dropOperand : Nat → List Token → List Token
  | _, [] => []
  | depth, t :: rest =>
    match t.mark? with
    | some s =>
      if s.isClosing then dropOperand (depth + 1) rest
      else if s.isOpening then if depth = 0 then t :: rest else dropOperand (depth - 1) rest
      else if 0 < depth || s = .point then dropOperand depth rest
      else t :: rest
    | none =>
      if 0 < depth || endsOperand t then dropOperand depth rest else t :: rest

/-- The brackets of tokens that are not closed, innermost first. -/
def unclosed : List Symbol → List Token → List Symbol
  | opened, [] => opened
  | opened, t :: rest =>
    match t.mark? with
    | some s =>
      if s.isOpening then unclosed (s :: opened) rest
      else if s.isClosing then unclosed (opened.drop 1) rest
      else unclosed opened rest
    | none => unclosed opened rest

def closing : Symbol → Symbol
  | .openParen => .closeParen
  | .openBracket => .closeBracket
  | _ => .closeBrace

/-- Passes over tokens until the reading can go on, and tells what is broken before that: from the last
operand on where an expression starts, from the start of the statement on where a statement does.
`seen` holds the tokens of the statement in reverse. -/
def resume (atLast : Nat) : List Token → List Token → Option (List Token)
  | _, [] => none
  | seen, t :: rest =>
    if isLine t || t.isNewline then resume (atLast + 1) seen rest
    else if startsStatement t then some seen.reverse
    else if Grammar.startsExpression t && !t.isMark .star then
      if 0 < atLast then some seen.reverse
      else
        let kept := dropOperand 0 seen
        some (seen.take (seen.length - kept.length)).reverse
    else resume (atLast + 1) (t :: seen) rest

/-- The node for what a reading stopped at. -/
def fault (tokens : List Token) (stop : Cursor) : Node :=
  let before := tokens.take (tokens.length - stop.tokens.length)
  let open_ := openTokens before
  let stopped := stop.tokens.headD .nothing
  match unclosed [] open_ with
  | [bracket] =>
    if stopped.isMark .colon && bracket = .openParen
      && (open_.getLast?.any fun t => endsOperand t || t.isMark .openParen) then
      .leaf .missing stopped.place (spellingOf (closing bracket))
    else brokenAt open_
  | _ => brokenAt open_
where
  /-- The broken tokens, or all tokens where nothing can go on. -/
  brokenAt (open_ : List Token) : Node :=
    let region := match resume 0 open_.reverse stop.tokens with
      | some [] => stop.tokens.take 1
      | some region => region
      | none => tokens.filter fun t => !(isLine t) && !t.isNewline
    .leaf .error (region.headD .nothing).place (String.ofList (Token.textOf region))

/-- The tree of a text whose reading stopped: a statement of the older dialect that came before, and the node for what
is broken. The sound statements before it are left out. -/
def tree (tokens : List Token) (stop : Cursor) : Node :=
  .branch .module ⟨1, 1⟩ (stop.legacy.toList ++ [fault tokens stop])

end Vetting.Python.Breakage
