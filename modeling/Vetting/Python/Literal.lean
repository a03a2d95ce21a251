import Vetting.Python.Lexer
import Vetting.Text.Blank

/-!
The inside of string literals: which escapes are sound, and how the content of a formatted literal
splits into text and fields. Which names characters have is a table that is passed in.
-/

namespace Vetting.Python.Literal

/-! ### Escapes -/

def hexValue (digits : List Char) : Nat :=
  digits.foldl (fun n c =>
    16 * n + (if c.isDigit then c.toNat - 48 else c.toLower.toNat - 87)) 0

/-- A character by its number, in a fixed count of hexadecimal digits. -/
def numbered (count : Nat) (text : List Char) : Except Cause (List Char) :=
  let digits := text.take count
  if digits.length = count && digits.all Lexer.isHexDigit && hexValue digits < 0x110000 then
    .ok digits
  else .error .badEscape

/-- A table that takes every name made of letters, digits, blanks and hyphens for that of a character. The true table
is smaller: it has no `NO SUCH NAME`. -/
def isNameShaped (name : List Char) : Bool :=
  !name.isEmpty && name.all fun c => c.isAlphanum || c = ' ' || c = '-'

variable (isCharacterName : List Char → Bool)

/-- A character by its name in braces. -/
def byName (text : List Char) : Except Cause (List Char) :=
  match text with
  | '{' :: rest =>
    let name := rest.takeWhile (· ≠ '}')
    if (rest.drop name.length).isEmpty || !isCharacterName name then .error .badEscape
    else .ok ('{' :: name ++ ['}'])
  | _ => .error .badEscape

/-- The characters that an escape takes behind its backslash. -/
def escape (isBytes : Bool) : List Char → Except Cause (List Char)
  | [] => .error .badEscape
  | c :: rest =>
    if c = 'x' then (numbered 2 rest).map (c :: ·)
    else if isBytes then if c.toNat < 128 then .ok [c] else .error .bytesNotAscii
    else if c = 'u' then (numbered 4 rest).map (c :: ·)
    else if c = 'U' then (numbered 8 rest).map (c :: ·)
    else if c = 'N' then (byName isCharacterName rest).map (c :: ·)
    else .ok [c]

/-- The first fault of a literal that is not formatted. -/
def fault? (isBytes isRaw : Bool) : Nat → List Char → Option Cause
  | 0, _ => none
  | _, [] => none
  | fuel + 1, c :: rest =>
    if c = '\\' && !isRaw then
      match escape isCharacterName isBytes rest with
      | .ok taken => fault? isBytes isRaw fuel (rest.drop taken.length)
      | .error cause => some cause
    else if isBytes && 128 ≤ c.toNat then some .bytesNotAscii
    else fault? isBytes isRaw fuel rest

/-! ### Formatted literals -/

/-- A part of a formatted literal. -/
inductive Piece where
  | text (place : Location) (text : List Char)
  /-- An expression, with the parts of the format asked for. -/
  | field (place exprPlace : Location) (expr : List Char) (spec : List Piece)

/-- A text that is still to be read, with its place. -/
structure Rest where
  place : Location
  text : List Char

def Rest.drop (r : Rest) (taken : List Char) : Rest :=
  ⟨advanceAll r.place taken, r.text.drop taken.length⟩

def opener (c : Char) : Char := if c = ')' then '(' else if c = ']' then '[' else '{'

/-- Whether a character makes a comparison with an equals sign behind it. -/
def startsComparison (c : Char) : Bool := c = '!' || c = '=' || c = '<' || c = '>'

/-- Whether a character that stands outside of brackets ends an expression. -/
def endsExpression (c : Char) : Bool := c = '!' || c = '=' || c = ':' || c = '}'

/-- The expression of a field, up to the mark that ends it. `opened` holds the open brackets, `quote` the
quote of an inner string, and `paired` says that the next character is the second of a comparison. -/
def expression (opened : List Char) (quote : Option Char) (paired : Bool) (seen : List Char) :
    List Char → Except String (List Char)
  | [] =>
    if quote.isSome then .error "unterminated string"
    else .error (if seen.all Text.isBlank then "empty expression" else "expecting '\x7d'")
  | c :: rest =>
    match quote with
    | some q => expression opened (if c = q then none else some q) false (c :: seen) rest
    | none =>
      if paired then expression opened none false (c :: seen) rest
      else if startsComparison c && rest.head? = some '=' then
        expression opened none true (c :: seen) rest
      else if opened.isEmpty && endsExpression c then .ok seen.reverse
      else if c = '(' || c = '[' || c = '{' then expression (c :: opened) none false (c :: seen) rest
      else if c = ')' || c = ']' || c = '}' then
        match opened with
        | [] => .error ("unmatched '" ++ c.toString ++ "'")
        | o :: outer =>
          if o = opener c then expression outer none false (c :: seen) rest
          else .error ("closing parenthesis '" ++ c.toString
            ++ "' does not match opening parenthesis '" ++ o.toString ++ "'")
      else if c = '"' || c = '\'' then expression opened (some c) false (c :: seen) rest
      else if c = '\\' || c = '#' then
        .error ("f-string expression part cannot include '" ++ c.toString ++ "'")
      else expression opened none false (c :: seen) rest

/-- What follows an expression up to the format: the mark that shows the expression itself, and a
conversion. -/
def conversion (r : Rest) : Except String Rest :=
  let r := match r.text with
    | '=' :: rest =>
      let blanks := rest.takeWhile (· = ' ')
      r.drop ('=' :: blanks)
    | _ => r
  match r.text with
  | '!' :: c :: rest =>
    if c = 's' || c = 'a' || c = 'r' then
      match rest with
      | '}' :: _ => .ok (r.drop ['!', c])
      | ':' :: _ => .ok (r.drop ['!', c])
      | _ => .error "expecting '\x7d'"
    else .error "invalid conversion character"
  | ['!'] => .error "expecting '\x7d'"
  | _ => .ok r

/-- Puts text that has been seen before the pieces. -/
def withText (place : Location) (seen : List Char) (pieces : List Piece) : List Piece :=
  if seen.isEmpty then pieces else .text place seen.reverse :: pieces

/-- Whether a text is one name, with blanks around it. -/
def isName (text : List Char) : Bool :=
  match Text.trim text with
  | [] => false
  | c :: rest => Text.isIdentifierStart c && rest.all Text.isIdentifierPart

mutual

/-- The pieces of a formatted literal, or of a format as many levels inside it as `depth` says. Text that
has been seen is in reverse. -/
def pieces (isRaw : Bool) (depth : Nat) (start : Location) (seen : List Char) :
    Nat → Rest → Except String (List Piece × Rest)
  | 0, r => .ok ([], r)
  | fuel + 1, r =>
    match r.text with
    | [] => .ok (withText start seen [], r)
    | '{' :: '{' :: rest =>
      if depth = 0 then
        pieces isRaw depth start ('{' :: '{' :: seen) fuel ⟨advanceAll r.place ['{', '{'], rest⟩
      else if 2 ≤ depth then .error "expressions nested too deeply"
      else do
        let (first, r) ← field isRaw depth fuel r
        let (more, r) ← pieces isRaw depth r.place [] fuel r
        return (withText start seen (first :: more), r)
    | '{' :: _ => do
      if 2 ≤ depth then throw "expressions nested too deeply"
      let (first, r) ← field isRaw depth fuel r
      let (more, r) ← pieces isRaw depth r.place [] fuel r
      return (withText start seen (first :: more), r)
    | '}' :: rest =>
      if 0 < depth then .ok (withText start seen [], r)
      else
        match rest with
        | '}' :: rest =>
          pieces isRaw depth start ('}' :: '}' :: seen) fuel ⟨advanceAll r.place ['}', '}'], rest⟩
        | _ => .error "single '\x7d' is not allowed"
    | c :: rest =>
      if c = '\\' && !isRaw && depth = 0 && rest.head? ≠ some '{' && rest.head? ≠ some '}' then
        match escape isCharacterName false rest with
        | .ok taken =>
          pieces isRaw depth start ((c :: taken).reverse ++ seen) fuel (r.drop (c :: taken))
        | .error cause => .error cause.message
      else pieces isRaw depth start (c :: seen) fuel ⟨advance r.place c, rest⟩

/-- A field from its opening to its closing brace. -/
def field (isRaw : Bool) (depth : Nat) : Nat → Rest → Except String (Piece × Rest)
  | 0, r => .ok (.text r.place [], r)
  | fuel + 1, r => do
    let body := r.drop ['{']
    let expr ← expression [] none false [] body.text
    if expr.all Text.isBlank then throw "empty expression"
    let afterExpr := body.drop expr
    let behind ← conversion afterExpr
    match behind.text with
    | '}' :: _ => return (.field r.place body.place expr [], behind.drop ['}'])
    | ':' :: rest =>
      let (spec, behind) ← pieces isRaw (depth + 1) (advance behind.place ':') [] fuel
        (behind.drop [':'])
      match behind.text with
      | '}' :: _ =>
        if rest.head? = some '=' && isName expr then
          let value ← expression [] none false [] (rest.drop 1)
          let whole := expr ++ ':' :: '=' :: value
          let _ ← conversion (body.drop whole)
          return (.field r.place body.place whole [], behind.drop ['}'])
        else return (.field r.place body.place expr spec, behind.drop ['}'])
      | _ => throw "expecting '\x7d'"
    | _ => throw "expecting '\x7d'"

end

/-- The pieces of a formatted literal. -/
def piecesOf (literal : StringLiteral) : Except String (List Piece) :=
  (pieces isCharacterName literal.isRaw 0 literal.contentPlace [] (2 * literal.content.length + 2)
    ⟨literal.contentPlace, literal.content⟩).map (·.1)

end Vetting.Python.Literal
