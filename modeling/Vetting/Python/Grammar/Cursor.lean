import Vetting.Python.Token
import Vetting.Python.Tree

/-!
Reading tokens one after another. The grammar that is read is a little wider than the language: what
has the shape of a program but is none is noted as an offence, and so is a statement of the older
dialect. A reading fails only where no program can go on.
-/

namespace Vetting.Python

/-- The tokens that are left, and what has been noted so far. -/
structure Cursor where
  tokens : List Token
  /-- No loop of the reading goes around more often than this. -/
  bound : Nat
  /-- The table of character names. -/
  isCharacterName : List Char → Bool
  /-- The first statement of the older dialect. -/
  legacy : Option Node := none
  /-- The first offence. -/
  offence : Option Offence := none

/-- A reading; one that fails tells where it stopped. -/
abbrev Parse (α : Type) := StateT Cursor (Except Cursor) α

def Token.nothing : Token := ⟨.endOfText, ⟨1, 1⟩, [], [], [], none, spelled_endOfText⟩

def Token.spelling (t : Token) : String := String.ofList t.text

/-- The source text of tokens, less what stands before the first. -/
def Token.textOf : List Token → List Char
  | [] => []
  | t :: rest => t.text ++ rest.flatMap fun u => u.gap ++ u.text

def Token.mark? (t : Token) : Option Symbol :=
  match t.kind with
  | .symbol s => some s
  | _ => none

def Token.word? (t : Token) : Option Keyword :=
  match t.kind with
  | .keyword k => some k
  | _ => none

def Token.isMark (t : Token) (s : Symbol) : Bool := t.mark? = some s

def Token.isWord (t : Token) (k : Keyword) : Bool := t.word? = some k

def Token.isName (t : Token) : Bool :=
  match t.kind with
  | .name => true
  | _ => false

def Token.isString (t : Token) : Bool :=
  match t.kind with
  | .string _ => true
  | _ => false

def Token.isNewline (t : Token) : Bool :=
  match t.kind with
  | .newline => true
  | _ => false

namespace Parse

def fail : Parse α := fun c => .error c

def peek : Parse Token := fun c => .ok (c.tokens.headD .nothing, c)

/-- The token behind the next one. -/
def peekSecond : Parse Token := fun c => .ok ((c.tokens.drop 1).headD .nothing, c)

def peekThird : Parse Token := fun c => .ok ((c.tokens.drop 2).headD .nothing, c)

def bound : Parse Nat := fun c => .ok (c.bound, c)

def characterNames : Parse (List Char → Bool) := fun c => .ok (c.isCharacterName, c)

/-- Notes an offence unless there is an earlier one. -/
def note (o : Offence) : Parse Unit := fun c => .ok ((), { c with offence := c.offence <|> some o })

/-- Notes a statement of the older dialect unless there is an earlier one. -/
def noteLegacy (n : Node) : Parse Unit := fun c => .ok ((), { c with legacy := c.legacy <|> some n })

/-- Takes the next token. -/
def next : Parse Token := fun c =>
  match c.tokens with
  | [] => .error c
  | t :: rest => .ok (t, { c with tokens := rest, offence := c.offence <|> t.offence })

/-- Takes the next token if it is a certain mark. -/
def accept (s : Symbol) : Parse Bool := do
  if (← peek).isMark s then
    let _ ← next
    return true
  else return false

def expect (s : Symbol) : Parse Token := do
  if (← peek).isMark s then next else fail

def acceptWord (k : Keyword) : Parse Bool := do
  if (← peek).isWord k then
    let _ ← next
    return true
  else return false

def expectWord (k : Keyword) : Parse Token := do
  if (← peek).isWord k then next else fail

def expectName : Parse Token := do
  if (← peek).isName then next else fail

def expectNewline : Parse Unit := do
  if (← peek).isNewline then
    let _ ← next
  else fail

/-- The source text of what has been read since an earlier state of the reading. -/
def textSince (start : Cursor) : Parse String := fun c =>
  .ok (String.ofList (Token.textOf (start.tokens.take (start.tokens.length - c.tokens.length))), c)

/-- The first reading, or the second one where the first fails. -/
def orElse (p q : Parse α) : Parse α := fun c =>
  match p c with
  | .ok r => .ok r
  | .error _ => q c

/-- Gives up the tokens that are left. -/
def abandon : Parse Unit := fun c => .ok ((), { c with tokens := c.tokens.drop (c.tokens.length - 1) })

/-- Grows a result as long as `step` says how; `step` gives `none` where it ends. -/
def iterate (step : α → Parse (Option α)) : Nat → α → Parse α
  | 0, a => pure a
  | n + 1, a => do
    match ← step a with
    | none => return a
    | some b => iterate step n b

/-- All items that `item?` finds. -/
def manyFrom (item? : Parse (Option α)) : Nat → List α → Parse (List α)
  | 0, seen => pure seen.reverse
  | n + 1, seen => do
    match ← item? with
    | none => return seen.reverse
    | some a => manyFrom item? n (a :: seen)

def many (item? : Parse (Option α)) : Parse (List α) := do manyFrom item? (← bound) []

/-- Further items behind commas; whether a comma follows the last. Behind a comma the list ends where
`stops` holds of the next token. -/
def moreFrom (item : Parse α) (stops : Token → Bool) : Nat → List α → Parse (List α × Bool)
  | 0, seen => pure (seen.reverse, false)
  | n + 1, seen => do
    if ← accept .comma then
      if stops (← peek) then return (seen.reverse, true)
      let a ← item
      moreFrom item stops n (a :: seen)
    else return (seen.reverse, false)

/-- Items separated by commas, the first of which has been read. -/
def moreItems (first : α) (item : Parse α) (stops : Token → Bool) : Parse (List α × Bool) := do
  moreFrom item stops (← bound) [first]

/-- At least one item, separated by commas. -/
def items (item : Parse α) (stops : Token → Bool) : Parse (List α × Bool) := do
  moreItems (← item) item stops

end Parse

end Vetting.Python
