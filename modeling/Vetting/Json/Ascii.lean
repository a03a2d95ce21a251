import Vetting.Json.Document

/-!
Documents written in ASCII alone, with a blank behind each comma and each colon. Every character that does not show
there stands as `\u` and four hexadecimal digits, or as two such units where four digits do not suffice.
-/

namespace Vetting.Json.Ascii

/-- Four hexadecimal digits. -/
def fourDigits (n : Nat) : List Char :=
  [hexDigit (n / 4096 % 16), hexDigit (n / 256 % 16), hexDigit (n / 16 % 16), hexDigit (n % 16)]

def unit (n : Nat) : List Char := '\\' :: 'u' :: fourDigits n

/-- A character inside a quoted text. -/
def char (c : Char) : List Char :=
  if c = '"' then ['\\', '"']
  else if c = '\\' then ['\\', '\\']
  else if c = '\n' then ['\\', 'n']
  else if c = '\r' then ['\\', 'r']
  else if c = '\t' then ['\\', 't']
  else if c.toNat = 8 then ['\\', 'b']
  else if c.toNat = 12 then ['\\', 'f']
  else if 32 ≤ c.toNat && c.toNat < 127 then [c]
  else if c.toNat < 0x10000 then unit c.toNat
  else unit (0xD800 + (c.toNat - 0x10000) / 0x400) ++ unit (0xDC00 + (c.toNat - 0x10000) % 0x400)

/-- A text without its quotes. -/
def chars (s : String) : List Char := s.toList.flatMap char

def quote (s : String) : List Char := '"' :: (chars s ++ ['"'])

def bool (b : Bool) : List Char := if b then "true".toList else "false".toList

def nat (n : Nat) : List Char := Nat.toDigits 10 n

/-- A value that may be missing. -/
def orNull (f : α → List Char) : Option α → List Char
  | some a => f a
  | none => "null".toList

/-- A key with its value, which is given by its text. -/
def field (f : String × List Char) : List Char := quote f.1 ++ ':' :: ' ' :: f.2

/-- The fields that follow the first one. -/
def moreFields (fields : List (String × List Char)) : List Char := fields.flatMap fun f => ',' :: ' ' :: field f

def object : List (String × List Char) → List Char
  | [] => ['\x7b', '\x7d']
  | f :: rest => '\x7b' :: (field f ++ (moreFields rest ++ ['\x7d']))

/-- A number from 0 on as a double is written that is smaller than `10 ^ 16`: with digits behind a point, or with a
negative exponent. -/
structure Numeral where
  whole : List Char
  places : List Char
  exponent : List Char
  digits : ∀ c ∈ whole ++ (places ++ exponent), isDigit c = true
  leading : whole = ['0'] ∨ ∃ c rest, whole = c :: rest ∧ c ≠ '0'
  short : whole.length ≤ 16
  fractional : places ≠ [] ∨ ∃ c ∈ exponent, c ≠ '0'

namespace Numeral

def exponentText (n : Numeral) : List Char := if n.exponent.isEmpty then [] else 'e' :: '-' :: n.exponent

def text (n : Numeral) : List Char :=
  n.whole ++ ((if n.places.isEmpty then [] else '.' :: n.places) ++ n.exponentText)

/-- The double that is read for a number. -/
def value (n : Numeral) : Binary64 :=
  match (readNumber false n.text).1 with
  | .float x => x
  | _ => .zero

end Numeral

end Vetting.Json.Ascii
