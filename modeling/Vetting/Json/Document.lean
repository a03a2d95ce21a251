import Vetting.Json

/-!
JSON documents as far as their text can be read. A document is a tree in which a fault of the text
stands at the place where reading would meet it, so whoever walks the tree in document order meets
faults of the text and faults of the content in the order of the text. A part that is read and a part
that is merely skipped can show different faults at one place, and a `Fault` keeps both.
-/

namespace Vetting.Json

/-- What can be wrong with the text of a document. -/
inductive TextError
  | endInValue
  | endInString
  | endInArray
  | endInObject
  | colonExpected
  | arrayCommaExpected
  | objectCommaExpected
  | wordExpected
  | valueExpected
  | invalidEscape
  | invalidNumber
  | numberOutOfRange
  | controlCharacter
  | keyExpected
  | trailingComma
  | trailingCharacters
  | unfinishedSurrogatePair
  | loneSurrogate
  | nestedTooDeeply
deriving DecidableEq

def TextError.message : TextError → String
  | .endInValue => "EOF while parsing a value"
  | .endInString => "EOF while parsing a string"
  | .endInArray => "EOF while parsing a list"
  | .endInObject => "EOF while parsing an object"
  | .colonExpected => "expected `:`"
  | .arrayCommaExpected => "expected `,` or `]`"
  | .objectCommaExpected => "expected `,` or `\x7d`"
  | .wordExpected => "expected ident"
  | .valueExpected => "expected value"
  | .invalidEscape => "invalid escape"
  | .invalidNumber => "invalid number"
  | .numberOutOfRange => "number out of range"
  | .controlCharacter => "control character (\\u0000-\\u001F) found while parsing a string"
  | .keyExpected => "key must be a string"
  | .trailingComma => "trailing comma"
  | .trailingCharacters => "trailing characters"
  | .unfinishedSurrogatePair => "unexpected end of hex escape"
  | .loneSurrogate => "lone leading surrogate in hex escape"
  | .nestedTooDeeply => "recursion limit exceeded"

/-- A place where the text cannot be continued: what is reported when the part is read, and what when
it is skipped. -/
structure Fault where
  reading : TextError
  skipping : TextError
deriving DecidableEq

/-- The same report either way. -/
def Fault.both (e : TextError) : Fault := ⟨e, e⟩

/-- A document as far as it can be read. -/
inductive Doc where
  | null
  | bool (value : Bool)
  | int (value : Int)
  | float (value : Binary64)
  /-- A number beyond the largest double. -/
  | hugeNumber
  /-- A text, or the fault of its surrogates, which a skipped text does not show. -/
  | str (value : Except TextError String)
  | seq (items : List Doc) (stop : Option Fault)
  | map (fields : List (Except TextError String × Doc)) (stop : Option Fault)
  | bad (fault : Fault)

instance : Inhabited Doc := ⟨.null⟩

/-! ### Numbers -/

def isDigit (c : Char) : Bool := '0' ≤ c && c ≤ '9'

def digitValue (c : Char) : Nat := c.toNat - '0'.toNat

def maxSignificand : Nat := UInt64.size - 1

/-- A significand of 64 bits: the digits up to the first that does not fit, and the remaining digits. -/
def takeSignificand (start : Nat) : List Char → Nat × List Char
  | [] => (start, [])
  | c :: rest =>
    let next := start * 10 + digitValue c
    if maxSignificand < next then (start, c :: rest) else takeSignificand next rest

/-- `± significand * 10 ^ exponent` by one rounded operation for each table power: powers of ten up to
`10 ^ 308` are doubles of their own, and a smaller exponent is reached in steps of 308. -/
def scaleByTen (negative : Bool) (significand : Nat) (exponent : Int) : Doc :=
  let signed (x : Binary64) : Doc := .float (if negative then -x else x)
  let start := Binary64.ofNat significand
  let power (n : Nat) := Binary64.ofDecimal false 1 n
  if 0 ≤ exponent then
    if exponent ≤ 308 then
      let value := start * power exponent.toNat
      if value.isInfinite then .hugeNumber else signed value
    else if significand = 0 then signed start
    else .hugeNumber
  else
    let steps := (-exponent).toNat
    if start.isZero then signed start
    else if 308 * 4 < steps then signed .zero
    else
      let reduced := Nat.repeat (· / power 308) ((steps - 1) / 308) start
      signed (reduced / power ((steps - 1) % 308 + 1))

/-- The exponents beyond which their sign alone decides. -/
def maxExponent : Nat := 2_147_483_647

def clampExponent (n : Int) : Int := max (-maxExponent - 1) (min maxExponent n)

/-- The number with this significand, its exponent so far and the digits of a written exponent. -/
def withExponent (negative : Bool) (significand : Nat) (start : Int) (expNegative : Bool)
    (digits : List Char) : Doc :=
  let written := digits.foldl (fun n c => min (10 * n + digitValue c) (maxExponent + 1)) 0
  if maxExponent < written then
    if significand ≠ 0 ∧ ¬ expNegative then .hugeNumber
    else .float (if negative then .negZero else .zero)
  else
    let exponent := if expNegative then start - written else start + written
    scaleByTen negative significand (clampExponent exponent)

/-- What is read where a number breaks off or goes wrong. -/
def badNumber (rest : List Char) : Doc × List Char :=
  (.bad ⟨if rest.isEmpty then .endInValue else .invalidNumber, .invalidNumber⟩, [])

/-- Whether an exponent has a minus before it, and what follows its sign. -/
def readSign : List Char → Bool × List Char
  | '+' :: rest => (false, rest)
  | '-' :: rest => (true, rest)
  | rest => (false, rest)

/-- A number with this significand and its exponent so far, from the place behind the letter of its written exponent. -/
def readExponent (negative : Bool) (significand : Nat) (shift : Int) (text : List Char) : Doc × List Char :=
  let (expNegative, rest) := readSign text
  let digits := rest.takeWhile isDigit
  if digits.isEmpty then badNumber rest
  else (withExponent negative significand shift expNegative digits, rest.dropWhile isDigit)

/-- What may follow the digits of a number: its exponent, or else the number ends. -/
def readTail (negative : Bool) (significand : Nat) (shift : Int) (plain : Doc) : List Char → Doc × List Char
  | 'e' :: rest => readExponent negative significand shift rest
  | 'E' :: rest => readExponent negative significand shift rest
  | rest => (plain, rest)

/-- A number with this significand and its exponent so far, from the place behind its point. -/
def readFraction (negative : Bool) (significand : Nat) (shift : Int) (text : List Char) : Doc × List Char :=
  let places := text.takeWhile isDigit
  if places.isEmpty then badNumber text
  else
    let (significand, unread) := takeSignificand significand places
    let shift := shift - (places.length - unread.length : Nat)
    readTail negative significand shift (scaleByTen negative significand shift) (text.dropWhile isDigit)

/-- A number without point and exponent. A whole number that fits 64 bits stays exact; minus zero does not count as
one. -/
def wholeNumber (negative : Bool) (significand dropped : Nat) : Doc :=
  if dropped ≠ 0 then scaleByTen negative significand dropped
  else if ¬ negative then .int significand
  else if significand = 0 ∨ UInt64.size / 2 < significand then .float (-Binary64.ofNat significand)
  else .int (-significand)

/-- A number from the place behind its sign. -/
def readNumber (negative : Bool) (text : List Char) : Doc × List Char :=
  let whole := text.takeWhile isDigit
  match whole with
  | [] => badNumber text
  | '0' :: _ :: _ => (.bad (.both .invalidNumber), [])
  | _ =>
    let (significand, dropped) := takeSignificand 0 whole
    match text.dropWhile isDigit with
    | '.' :: rest => readFraction negative significand dropped.length rest
    | rest =>
      readTail negative significand dropped.length (wholeNumber negative significand dropped.length) rest

/-! ### Texts -/

def hexValue? (c : Char) : Option Nat :=
  if isDigit c then some (digitValue c)
  else if 'a' ≤ c && c ≤ 'f' then some (c.toNat - 'a'.toNat + 10)
  else if 'A' ≤ c && c ≤ 'F' then some (c.toNat - 'A'.toNat + 10)
  else none

/-- The value of four hexadecimal digits. -/
def hexUnit (text : List Char) : Except TextError (Nat × List Char) :=
  match text with
  | a :: b :: c :: d :: rest =>
    match hexValue? a, hexValue? b, hexValue? c, hexValue? d with
    | some a, some b, some c, some d => .ok (((a * 16 + b) * 16 + c) * 16 + d, rest)
    | _, _, _, _ => .error .invalidEscape
  | _ => .error .endInString

def isLeadingSurrogate (n : Nat) : Bool := 0xD800 ≤ n && n ≤ 0xDBFF

def isTrailingSurrogate (n : Nat) : Bool := 0xDC00 ≤ n && n ≤ 0xDFFF

/-- What follows a leading surrogate: the second half of its pair, or the fault with the place after the first half. -/
def completePair (first : Nat) (text : List Char) : Except TextError Char × List Char :=
  match text with
  | [] => (.error .endInString, text)
  | '\\' :: [] => (.error .endInString, text)
  | '\\' :: 'u' :: more =>
    match hexUnit more with
    | .error e => (.error e, text)
    | .ok (second, rest) =>
      if isTrailingSurrogate second then
        (.ok (Char.ofNat (0x10000 + (first - 0xD800) * 0x400 + (second - 0xDC00))), rest)
      else (.error .loneSurrogate, text)
  | _ => (.error .unfinishedSurrogatePair, text)

/-- What follows `\u`: a character, or the fault of its surrogates with the place after the first
unit. -/
def unicodeEscape (text : List Char) :
    Except TextError (Except TextError Char × List Char) := do
  let (unit, rest) ← hexUnit text
  if isTrailingSurrogate unit then return (.error .loneSurrogate, rest)
  if ¬ isLeadingSurrogate unit then return (.ok (Char.ofNat unit), rest)
  return completePair unit rest

def simpleEscape? (c : Char) : Option Char :=
  match c with
  | '"' => some '"'
  | '\\' => some '\\'
  | '/' => some '/'
  | 'b' => some (Char.ofNat 8)
  | 'f' => some (Char.ofNat 12)
  | 'n' => some '\n'
  | 'r' => some '\r'
  | 't' => some '\t'
  | _ => none

/-- A text from the place behind its opening quote; `seen` holds its characters so far, last first,
and `soft` the first fault of its surrogates. -/
def readText : Nat → List Char → Option TextError → List Char →
    Except Fault (Except TextError String × List Char)
  | 0, _, _, _ => .error (.both .endInString)
  | fuel + 1, seen, soft, text =>
    let fault (e : TextError) : Fault := ⟨soft.getD e, e⟩
    match text with
    | [] => .error (fault .endInString)
    | '"' :: rest =>
      match soft with
      | some e => .ok (.error e, rest)
      | none => .ok (.ok (String.ofList seen.reverse), rest)
    | '\\' :: [] => .error (fault .endInString)
    | '\\' :: 'u' :: rest =>
      match unicodeEscape rest with
      | .error e => .error (fault e)
      | .ok (.ok c, rest) => readText fuel (c :: seen) soft rest
      | .ok (.error e, rest) => readText fuel seen (some (soft.getD e)) rest
    | '\\' :: c :: rest =>
      match simpleEscape? c with
      | some d => readText fuel (d :: seen) soft rest
      | none => .error (fault .invalidEscape)
    | c :: rest =>
      if c.toNat < 32 then .error (fault .controlCharacter)
      else readText fuel (c :: seen) soft rest

/-! ### Values -/

def isBlank (c : Char) : Bool := c = ' ' || c = '\n' || c = '\t' || c = '\r'

def skipBlanks (text : List Char) : List Char := text.dropWhile isBlank

/-- The rest of a word such as `null` whose first letter has been read. -/
def readWord (letters : List Char) (value : Doc) (text : List Char) : Doc × Option (List Char) :=
  match letters, text with
  | [], _ => (value, some text)
  | _ :: _, [] => (.bad (.both .endInValue), none)
  | l :: ls, c :: rest =>
    if l = c then readWord ls value rest else (.bad (.both .wordExpected), none)

mutual

/-- A value and the text behind it; no text is left behind a fault. -/
def readValue : Nat → List Char → Doc × Option (List Char)
  | 0, _ => (.bad (.both .endInValue), none)
  | fuel + 1, text =>
    match skipBlanks text with
    | [] => (.bad (.both .endInValue), none)
    | 'n' :: rest => readWord "ull".toList .null rest
    | 't' :: rest => readWord "rue".toList (.bool true) rest
    | 'f' :: rest => readWord "alse".toList (.bool false) rest
    | '"' :: rest =>
      match readText (rest.length + 1) [] none rest with
      | .ok (s, rest) => (.str s, some rest)
      | .error fault => (.bad fault, none)
    | '[' :: rest => readItems fuel true [] rest
    | '\x7b' :: rest => readFields fuel true [] rest
    | '-' :: rest => numeric (readNumber true rest)
    | c :: rest =>
      if isDigit c then numeric (readNumber false (c :: rest))
      else (.bad (.both .valueExpected), none)
where
  numeric (read : Doc × List Char) : Doc × Option (List Char) :=
    match read with
    | (.bad fault, _) => (.bad fault, none)
    | (value, rest) => (value, some rest)

/-- The items of an array from the place before a comma, an item or the end. -/
def readItems : Nat → Bool → List Doc → List Char → Doc × Option (List Char)
  | 0, _, seen, _ => (.seq seen.reverse (some (.both .endInArray)), none)
  | fuel + 1, first, seen, text =>
    let stop (fault : Fault) : Doc × Option (List Char) := (.seq seen.reverse (some fault), none)
    let item (text : List Char) : Doc × Option (List Char) :=
      match readValue fuel text with
      | (v, some rest) => readItems fuel false (v :: seen) rest
      | (v, none) => (.seq (v :: seen).reverse none, none)
    match skipBlanks text with
    | [] => stop (.both .endInArray)
    | ']' :: rest => (.seq seen.reverse none, some rest)
    | c :: rest =>
      if first then item (c :: rest)
      else if c ≠ ',' then stop (.both .arrayCommaExpected)
      else
        match skipBlanks rest with
        | [] => stop (.both .endInValue)
        | ']' :: _ => stop ⟨.trailingComma, .valueExpected⟩
        | rest => item rest

/-- The fields of an object from the place before a comma, a key or the end. -/
def readFields : Nat → Bool → List (Except TextError String × Doc) → List Char →
    Doc × Option (List Char)
  | 0, _, seen, _ => (.map seen.reverse (some (.both .endInObject)), none)
  | fuel + 1, first, seen, text =>
    let stop (fault : Fault) : Doc × Option (List Char) := (.map seen.reverse (some fault), none)
    let field (text : List Char) : Doc × Option (List Char) :=
      match readText (text.length + 1) [] none text with
      | .error fault => stop fault
      | .ok (key, rest) =>
        let faulty (fault : TextError) : Doc × Option (List Char) :=
          (.map ((key, .bad (.both fault)) :: seen).reverse none, none)
        match skipBlanks rest with
        | [] => faulty .endInObject
        | ':' :: rest =>
          match readValue fuel rest with
          | (v, some rest) => readFields fuel false ((key, v) :: seen) rest
          | (v, none) => (.map ((key, v) :: seen).reverse none, none)
        | _ => faulty .colonExpected
    match skipBlanks text with
    | [] => stop (.both .endInObject)
    | '\x7d' :: rest => (.map seen.reverse none, some rest)
    | '"' :: rest => if first then field rest else stop (.both .objectCommaExpected)
    | c :: rest =>
      if first then stop (.both .keyExpected)
      else if c ≠ ',' then stop (.both .objectCommaExpected)
      else
        match skipBlanks rest with
        | [] => stop ⟨.endInValue, .endInObject⟩
        | '"' :: rest => field rest
        | '\x7d' :: _ => stop ⟨.trailingComma, .keyExpected⟩
        | _ => stop (.both .keyExpected)

end

/-- A document and whether anything but blanks follows it. -/
structure Document where
  root : Doc
  trailing : Bool

def Document.ofText (text : String) : Document :=
  let chars := text.toList
  match readValue (2 * chars.length + 2) chars with
  | (root, some rest) => ⟨root, ¬ (skipBlanks rest).isEmpty⟩
  | (root, none) => ⟨root, false⟩

/-! ### Values as documents -/

mutual

/-- A value as the document that would be read from its text. -/
def toDoc : Json → Doc
  | .null => .null
  | .bool b => .bool b
  | .int n => .int n
  | .float x => .float x
  | .str s => .str (.ok s)
  | .arr items => .seq (toDocs items) none
  | .obj fields => .map (toDocFields fields) none
termination_by structural v => v

def toDocs : List Json → List Doc
  | [] => []
  | v :: rest => toDoc v :: toDocs rest
termination_by structural vs => vs

def toDocFields : List (String × Json) → List (Except TextError String × Doc)
  | [] => []
  | f :: rest => toDocField f :: toDocFields rest
termination_by structural fs => fs

def toDocField : String × Json → Except TextError String × Doc
  | (k, v) => (.ok k, toDoc v)
termination_by structural f => f

end

end Vetting.Json
