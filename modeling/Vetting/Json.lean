import Vetting.Binary64.Decimal

/-!
JSON values and their text. Whole numbers stay exact and are told apart from floating-point numbers,
so `1` and `1.0` are different values.
-/

namespace Vetting

/-- A JSON value. A whole number that is read from a document fits 64 bits, signed or unsigned. -/
inductive Json where
  | null
  | bool (value : Bool)
  | int (value : Int)
  | float (value : Binary64)
  | str (value : String)
  | arr (items : List Json)
  | obj (fields : List (String × Json))

namespace Json

instance : Inhabited Json := ⟨.null⟩

mutual

/-- Equality of values; floating-point numbers are compared as numbers, objects field by field. -/
def equal : Json → Json → Bool
  | .null, .null => true
  | .bool a, .bool b => a == b
  | .int a, .int b => a == b
  | .float a, .float b => a.numEq b
  | .str a, .str b => a == b
  | .arr a, .arr b => equalItems a b
  | .obj a, .obj b => equalFields a b
  | _, _ => false
termination_by structural a => a

def equalItems : List Json → List Json → Bool
  | [], [] => true
  | a :: as, b :: bs => equal a b && equalItems as bs
  | _, _ => false
termination_by structural as => as

def equalFields : List (String × Json) → List (String × Json) → Bool
  | [], [] => true
  | a :: as, b :: bs => equalField a b && equalFields as bs
  | _, _ => false
termination_by structural as => as

def equalField : String × Json → String × Json → Bool
  | (k, a), (l, b) => k == l && equal a b
termination_by structural a => a

end

instance : BEq Json := ⟨equal⟩

/-- The order of texts by their bytes in UTF-8, which is the order by code points. -/
def keyLt (a b : String) : Bool := decide (a < b)

/-- Puts a field into a list sorted by key; a field of the same key is replaced. -/
def insertField (key : String) (value : Json) : List (String × Json) → List (String × Json)
  | [] => [(key, value)]
  | (k, v) :: rest =>
    if keyLt key k then (key, value) :: (k, v) :: rest
    else if key == k then (key, value) :: rest
    else (k, v) :: insertField key value rest

/-- The object with the given fields in key order; of two fields of one key the later one counts. -/
def ofFields (fields : List (String × Json)) : Json :=
  .obj (fields.foldl (fun sorted (k, v) => insertField k v sorted) [])

/-- The value of a field of an object. -/
def field? (name : String) : Json → Option Json
  | .obj fields => fields.lookup name
  | _ => none

/-- A field that is present and not null. -/
def given? (name : String) (value : Json) : Option Json :=
  match value.field? name with
  | some .null => none
  | other => other

/-! ### Text -/

def hexDigit (n : Nat) : Char := Nat.digitChar n

/-- A character inside a quoted text: what must be escaped has a short form or `\u00xx`. -/
def escapeChar (c : Char) : List Char :=
  if c = '"' then ['\\', '"']
  else if c = '\\' then ['\\', '\\']
  else if c = '\n' then ['\\', 'n']
  else if c = '\r' then ['\\', 'r']
  else if c = '\t' then ['\\', 't']
  else if c.toNat = 8 then ['\\', 'b']
  else if c.toNat = 12 then ['\\', 'f']
  else if c.toNat < 32 then ['\\', 'u', '0', '0', hexDigit (c.toNat / 16), hexDigit (c.toNat % 16)]
  else [c]

def quote (s : String) : String :=
  "\"" ++ String.ofList (s.toList.flatMap escapeChar) ++ "\""

mutual

/-- The text without any space. Numbers that are not finite have no text of their own and are
written as `null`. -/
def compact : Json → String
  | .null => "null"
  | .bool b => if b then "true" else "false"
  | .int n => toString n
  | .float x => if x.isFinite then x.documentText else "null"
  | .str s => quote s
  | .arr items => "[" ++ compactItems items ++ "]"
  | .obj fields => "\x7b" ++ compactFields fields ++ "\x7d"
termination_by structural v => v

def compactItems : List Json → String
  | [] => ""
  | v :: rest => compact v ++ compactMoreItems rest
termination_by structural vs => vs

def compactMoreItems : List Json → String
  | [] => ""
  | v :: rest => "," ++ compact v ++ compactMoreItems rest
termination_by structural vs => vs

def compactFields : List (String × Json) → String
  | [] => ""
  | f :: rest => compactField f ++ compactMoreFields rest
termination_by structural fs => fs

def compactMoreFields : List (String × Json) → String
  | [] => ""
  | f :: rest => "," ++ compactField f ++ compactMoreFields rest
termination_by structural fs => fs

def compactField : String × Json → String
  | (k, v) => quote k ++ ":" ++ compact v
termination_by structural f => f

end

def lineBreak (depth : Nat) : String := "\n" ++ "".pushn ' ' (2 * depth)

mutual

/-- The text with one item a line and two spaces a level; empty arrays and objects stay closed. -/
def pretty (depth : Nat) : Json → String
  | .arr [] => "[]"
  | .arr (v :: rest) =>
    "[" ++ lineBreak (depth + 1) ++ pretty (depth + 1) v ++ prettyMoreItems (depth + 1) rest
      ++ lineBreak depth ++ "]"
  | .obj [] => "\x7b\x7d"
  | .obj (f :: rest) =>
    "\x7b" ++ lineBreak (depth + 1) ++ prettyField (depth + 1) f ++ prettyMoreFields (depth + 1) rest
      ++ lineBreak depth ++ "\x7d"
  | v => compact v
termination_by structural v => v

def prettyMoreItems (depth : Nat) : List Json → String
  | [] => ""
  | v :: rest => "," ++ lineBreak depth ++ pretty depth v ++ prettyMoreItems depth rest
termination_by structural vs => vs

def prettyMoreFields (depth : Nat) : List (String × Json) → String
  | [] => ""
  | f :: rest => "," ++ lineBreak depth ++ prettyField depth f ++ prettyMoreFields depth rest
termination_by structural fs => fs

def prettyField (depth : Nat) : String × Json → String
  | (k, v) => quote k ++ ": " ++ pretty depth v
termination_by structural f => f

end

end Json

end Vetting
