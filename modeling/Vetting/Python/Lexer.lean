import Vetting.Python.Token
import Vetting.Text.Identifier

/-!
The tokens of a source text. Whether a carriage return alone ends a line is left open: a text can be
read either way, and the two readings differ only where such a carriage return stands.
-/

namespace Vetting.Python

/-- How a carriage return without line feed is taken. -/
inductive ReturnReading
  | endsLine
  | isBlank
deriving DecidableEq

namespace Lexer

/-! ### Numbers -/

/-- Digits, with single underscores between them. -/
def digits (ok : Char → Bool) : List Char → List Char × List Char
  | '_' :: d :: rest =>
    if ok d then
      let (taken, rest) := digits ok rest
      ('_' :: d :: taken, rest)
    else ([], '_' :: d :: rest)
  | d :: rest =>
    if ok d then
      let (taken, rest) := digits ok rest
      (d :: taken, rest)
    else ([], d :: rest)
  | [] => ([], [])

def isHexDigit (c : Char) : Bool :=
  c.isDigit || ('a' ≤ c && c ≤ 'f') || ('A' ≤ c && c ≤ 'F')

def isOctalDigit (c : Char) : Bool := '0' ≤ c && c ≤ '7'

def isBinaryDigit (c : Char) : Bool := c = '0' || c = '1'

/-- A piece of source text that has been read, the rest, and what is wrong with the piece. -/
structure Reading where
  taken : List Char
  rest : List Char
  cause : Option Cause

def Reading.then (r : Reading) (next : List Char → Reading) : Reading :=
  let s := next r.rest
  ⟨r.taken ++ s.taken, s.rest, r.cause <|> s.cause⟩

/-- The mark of an imaginary number. -/
def imaginaryMark (text : List Char) : Reading :=
  match text with
  | 'j' :: rest => ⟨['j'], rest, none⟩
  | 'J' :: rest => ⟨['J'], rest, none⟩
  | _ => ⟨[], text, none⟩

/-- The digits of an exponent, behind its letter and sign. -/
def exponentDigits (text : List Char) : Reading :=
  match text with
  | '_' :: _ => ⟨[], text, some .invalidPoint⟩
  | _ =>
    match digits Char.isDigit text with
    | ([], rest) => ⟨[], rest, some .invalidDecimal⟩
    | (taken, rest) => ⟨taken, rest, none⟩

def exponentSign (text : List Char) : Reading :=
  match text with
  | '+' :: rest => ⟨['+'], rest, none⟩
  | '-' :: rest => ⟨['-'], rest, none⟩
  | _ => ⟨[], text, none⟩

/-- An exponent, if the text goes on with its letter. -/
def exponent (text : List Char) : Reading :=
  match text with
  | 'e' :: rest => (Reading.mk ['e'] rest none).then fun t => (exponentSign t).then exponentDigits
  | 'E' :: rest => (Reading.mk ['E'] rest none).then fun t => (exponentSign t).then exponentDigits
  | _ => ⟨[], text, none⟩

/-- Whether an exponent follows a whole number. -/
def startsExponent : List Char → Bool
  | e :: c :: _ => (e = 'e' || e = 'E') && (c = '+' || c = '-' || c.isDigit)
  | _ => false

/-- The end of a whole number. Zeros may not lead it, and the mark of a long one is no longer
allowed. -/
def wholeEnd (whole text : List Char) : Reading :=
  match text with
  | 'j' :: _ => imaginaryMark text
  | 'J' :: _ => imaginaryMark text
  | 'l' :: rest => ⟨['l'], rest, some (.unexpectedToken "'l'")⟩
  | 'L' :: rest => ⟨['L'], rest, some (.unexpectedToken "'L'")⟩
  | _ =>
    let leadingZero := whole.head? = some '0' && whole.any fun c => c ≠ '0' && c ≠ '_'
    ⟨[], text, if leadingZero then some .invalidToken else none⟩

def decimal (text : List Char) : Reading :=
  let (whole, rest) := digits Char.isDigit text
  let start : Reading := ⟨whole, rest, none⟩
  match rest with
  | '.' :: '_' :: _ => start.then fun t => ⟨['.'], t.drop 1, some .invalidPoint⟩
  | '.' :: more =>
    let (fraction, rest) := digits Char.isDigit more
    (Reading.mk (whole ++ '.' :: fraction) rest none).then fun t =>
      (exponent t).then imaginaryMark
  | _ =>
    if startsExponent rest then start.then fun t => (exponent t).then imaginaryMark
    else start.then (wholeEnd whole)

/-- A number with a base, behind its two marks. -/
def based (marks : List Char) (ok : Char → Bool) (text : List Char) : Reading :=
  let (taken, rest) := digits ok text
  (Reading.mk (marks ++ taken) rest (if taken.isEmpty then some .invalidToken else none)).then
    fun t => if t.head? = some 'l' || t.head? = some 'L' then wholeEnd [] t else ⟨[], t, none⟩

/-- A number. -/
def number (text : List Char) : Reading :=
  match text with
  | '0' :: c :: rest =>
    if c = 'x' || c = 'X' then based ['0', c] isHexDigit rest
    else if c = 'o' || c = 'O' then based ['0', c] isOctalDigit rest
    else if c = 'b' || c = 'B' then based ['0', c] isBinaryDigit rest
    else decimal text
  | _ => decimal text

/-! ### Strings -/

/-- The marks before a quote, if the text starts a string literal. -/
def stringMarks? : List Char → Option (List Char)
  | a :: b :: c :: _ =>
    let isQuote (x : Char) := x = '"' || x = '\''
    let single := [a.toLower]
    if isQuote a then some []
    else if isQuote b && (single = ['r'] || single = ['b'] || single = ['f'] || single = ['u']) then
      some [a]
    else
      let pair := [a.toLower, b.toLower]
      if isQuote c && (pair = ['r', 'b'] || pair = ['b', 'r'] || pair = ['r', 'f']
        || pair = ['f', 'r']) then some [a, b]
      else none
  | a :: b :: _ =>
    let isQuote (x : Char) := x = '"' || x = '\''
    if isQuote a then some []
    else if isQuote b && ['r', 'b', 'f', 'u'].contains a.toLower then some [a] else none
  | ['"'] => some []
  | ['\''] => some []
  | _ => none

/-- The text up to the closing quote, and what follows; `seen` is in reverse. -/
def shortBody (reading : ReturnReading) (quote : Char) :
    List Char → List Char → Option (List Char × List Char)
  | seen, '\\' :: '\r' :: '\n' :: rest => shortBody reading quote ('\n' :: '\r' :: '\\' :: seen) rest
  | seen, '\\' :: c :: rest => shortBody reading quote (c :: '\\' :: seen) rest
  | seen, c :: rest =>
    if c = quote then some (seen.reverse, rest)
    else if c = '\n' || (c = '\r' && (reading = .endsLine || rest.head? = some '\n')) then none
    else shortBody reading quote (c :: seen) rest
  | _, [] => none

/-- The text up to three closing quotes, and what follows; `seen` is in reverse. -/
def longBody (quote : Char) : List Char → List Char → Option (List Char × List Char)
  | seen, '\\' :: c :: rest => longBody quote (c :: '\\' :: seen) rest
  | seen, a :: b :: c :: rest =>
    if a = quote && b = quote && c = quote then some (seen.reverse, rest)
    else longBody quote (a :: seen) (b :: c :: rest)
  | _, _ => none

/-- A string literal behind its marks: the quotes and the text between them. -/
def stringBody? (reading : ReturnReading) : List Char → Option (List Char × List Char × List Char)
  | '"' :: '"' :: '"' :: rest => (longBody '"' [] rest).map fun r => (['"', '"', '"'], r)
  | '\'' :: '\'' :: '\'' :: rest => (longBody '\'' [] rest).map fun r => (['\'', '\'', '\''], r)
  | quote :: rest => (shortBody reading quote [] rest).map fun r => ([quote], r)
  | [] => none

/-! ### Layout -/

/-- What the lexer has seen so far. -/
structure State where
  place : Location
  depth : Nat := 0
  /-- Whether no token of the current line has been seen. -/
  fresh : Bool := true
  indent : Indentation := {}
  /-- What stands before the next token, in reverse. -/
  gap : List Char := []
  joints : List Location := []
  offence : Option Offence := none
  /-- The tokens, in reverse. -/
  tokens : List Token := []

namespace State

/-- Passes over characters that belong to no token. -/
def skip (s : State) (text : List Char) : State :=
  { s with place := advanceAll s.place text, gap := text.reverse ++ s.gap }

/-- Takes characters as a token. -/
def emit (s : State) (kind : TokenKind) (text : List Char) (cause : Option Cause)
    (spelled : kind = .name → text.all Text.isIdentifierPart = true := by intro h; cases h) : State :=
  let offence := s.offence <|> cause.map fun c => Offence.placed c s.place
  let token : Token := ⟨kind, s.place, text, s.gap.reverse, s.joints.reverse, offence, spelled⟩
  { s with
    place := advanceAll s.place text
    gap := []
    joints := []
    offence := none
    tokens := token :: s.tokens }

/-- Opens the logical line if the next token is its first. -/
def openLine (s : State) : State :=
  if s.fresh then { s.emit (.line s.indent) [] none with fresh := false } else s

/-- Closes the logical line, if there is one and it may end here. -/
def closeLine (s : State) (text : List Char) : State :=
  if s.depth = 0 && !s.fresh then
    { s.emit .newline text none with fresh := true, indent := {} }
  else { s.skip text with indent := {} }

/-- A blank; at the start of a line it counts towards the indentation. -/
def blank (s : State) (c : Char) : State :=
  let t := s.skip [c]
  if !s.fresh then t
  else if c = ' ' then { t with indent := { t.indent with spaces := t.indent.spaces + 1 } }
  else if c = '\t' then
    { t with
      indent := { t.indent with tabs := t.indent.tabs + 1 }
      offence := t.offence <|> if t.indent.spaces = 0 then none
        else some (.placed .tabsAfterSpaces s.place) }
  else { t with indent := {} }

/-- Keeps count of open brackets. -/
def nest (s : State) (mark : Symbol) : State :=
  if mark.isOpening then { s with depth := s.depth + 1 }
  else if mark.isClosing then { s with depth := s.depth - 1 }
  else s

/-- The tokens, closed by the end of the text. -/
def finish (s : State) : List Token :=
  let s := if s.depth = 0 then s.closeLine [] else s
  (s.emit .endOfText [] none spelled_endOfText).tokens.reverse

end State

/-- The text behind a line ending, and the ending. -/
def lineEnd? (reading : ReturnReading) : List Char → Option (List Char × List Char)
  | '\n' :: rest => some (['\n'], rest)
  | '\r' :: '\n' :: rest => some (['\r', '\n'], rest)
  | '\r' :: rest => if reading = .endsLine then some (['\r'], rest) else none
  | _ => none

/-- The part of a text that belongs to the same line. -/
def untilLineEnd (reading : ReturnReading) : List Char → List Char × List Char
  | [] => ([], [])
  | c :: rest =>
    if c = '\n' || (c = '\r' && reading = .endsLine) then ([], c :: rest)
    else
      let (taken, rest) := untilLineEnd reading rest
      (c :: taken, rest)

def symbol? (text : List Char) : Option (List Char × Symbol) :=
  Symbol.spellings.find? fun (spelling, _) => spelling.isPrefixOf text

def startsNumber : List Char → Bool
  | '.' :: d :: _ => d.isDigit
  | d :: _ => d.isDigit
  | [] => false

/-- Takes one token from a text that starts with neither blank nor comment. -/
def token (reading : ReturnReading) (s : State) (text : List Char) : State × List Char :=
  let s := s.openLine
  match stringMarks? text with
  | some marks =>
    match stringBody? reading (text.drop marks.length) with
    | some (quotes, content, rest) =>
      let low := marks.map Char.toLower
      let opening := marks ++ quotes
      let literal : StringLiteral :=
        ⟨low.contains 'b', low.contains 'r', low.contains 'f', content,
          advanceAll s.place opening⟩
      -- A string takes up the joints before it.
      ({ s with joints := [] }.emit (.string literal) (opening ++ content ++ quotes) none, rest)
    | none => (s.emit .stray (text.take 1) none, text.drop 1)
  | none =>
    if text.head?.any Text.isIdentifierStart then
      let word := text.takeWhile Text.isIdentifierPart
      let kind := match Keyword.ofChars? word with
        | some k => .keyword k
        | none => .name
      (s.emit kind word none fun _ => List.all_takeWhile, text.drop word.length)
    else if startsNumber text then
      let r := number text
      (s.emit .number r.taken r.cause, r.rest)
    else
      match symbol? text with
      | some (spelling, mark) =>
        let cause := if mark = .lessGreater then some (.unexpectedToken "'<>'") else none
        ((s.emit (.symbol mark) spelling cause).nest mark, text.drop spelling.length)
      | none => (s.emit .stray (text.take 1) none, text.drop 1)

/-- Passes over a joint: a backslash at the very end of a line that is not the last. -/
def joint? (reading : ReturnReading) (s : State) (text : List Char) : Option (State × List Char) :=
  match lineEnd? reading text with
  | some (_, []) => none
  | some (ending, rest) =>
    let s := s.openLine
    some ({ s.skip ('\\' :: ending) with joints := s.place :: s.joints }, rest)
  | none => none

def scan (reading : ReturnReading) : Nat → State → List Char → List Token
  | 0, s, _ => s.finish
  | _, s, [] => s.finish
  | fuel + 1, s, c :: rest =>
    match lineEnd? reading (c :: rest) with
    | some (ending, rest) => scan reading fuel (s.closeLine ending) rest
    | none =>
      if c = ' ' || c = '\t' || c = '\x0c' || c = '\r' then scan reading fuel (s.blank c) rest
      else if c = '#' then
        let (comment, rest) := untilLineEnd reading (c :: rest)
        scan reading fuel { s.skip comment with indent := {} } rest
      else if c = '\\' then
        match joint? reading s rest with
        | some (s, rest) => scan reading fuel s rest
        | none => scan reading fuel (s.openLine.emit .stray [c] none) rest
      else
        let (s, rest) := token reading s (c :: rest)
        scan reading fuel s rest

/-- The tokens of a part of a line that starts at a place, as if in brackets. -/
def inBrackets (place : Location) (text : List Char) : List Token :=
  scan .endsLine (text.length + 1) { place := place, depth := 1, fresh := false } text

/-- The tokens of a source text; a byte order mark before it is passed over. -/
def tokens (reading : ReturnReading) (text : List Char) : List Token :=
  let start : State := { place := ⟨1, 1⟩ }
  match text with
  | '\uFEFF' :: rest => scan reading (text.length + 1) (start.skip ['\uFEFF']) rest
  | _ => scan reading (text.length + 1) start text

end Lexer

end Vetting.Python
