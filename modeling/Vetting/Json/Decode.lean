import Vetting.Json.Document

/-!
Decoding of documents into domain values. A `Decoder` walks a `Doc` in document order, so the first
fault of text or content is the one reported. Records may be given as objects, with unknown keys
skipped and repeated keys refused, or as arrays in field order; `Shape` describes a record once for
both forms.
-/

namespace Vetting.Json

/-- What a decoder found in place of what it expected. -/
inductive Found
  | null
  | bool (value : Bool)
  | int (value : Int)
  | float (value : Binary64)
  | str (value : String)
  | sequence
  | map

/-- Hexadecimal text without leading zeros. -/
def hexText (n : Nat) : String := String.ofList (Nat.toDigits 16 n)

/-- A character inside a text that is quoted for a message. -/
def debugChar (c : Char) : String :=
  if c = '"' then "\\\""
  else if c = '\\' then "\\\\"
  else if c = '\n' then "\\n"
  else if c = '\r' then "\\r"
  else if c = '\t' then "\\t"
  else if c.toNat = 0 then "\\0"
  else if c.toNat < 32 || c.toNat = 127 || (0x80 ≤ c.toNat && c.toNat < 0xA0) then
    "\\u\x7b" ++ hexText c.toNat ++ "\x7d"
  else c.toString

def debugQuote (s : String) : String :=
  "\"" ++ String.join (s.toList.map debugChar) ++ "\""

def Found.describe : Found → String
  | .null => "null"
  | .bool b => "boolean `" ++ (if b then "true" else "false") ++ "`"
  | .int n => "integer `" ++ toString n ++ "`"
  | .float x => "floating point `" ++ x.documentText ++ "`"
  | .str s => "string " ++ debugQuote s
  | .sequence => "sequence"
  | .map => "map"

/-- Why a document does not decode. -/
inductive DecodeError
  | text (cause : TextError)
  | invalidType (found : Found) (expected : String)
  | invalidValue (found : Found) (expected : String)
  | invalidLength (length : Nat) (expected : String)
  | missingField (name : String)
  | duplicateField (name : String)
  | unknownVariant (name : String) (expected : List String)
  /-- A text or number of the right kind that the domain refuses, with the domain's reason. -/
  | refused (reason : String)

/-- A choice of names in a message. -/
def oneOf (names : List String) : String :=
  match names.map fun n => "`" ++ n ++ "`" with
  | [] => "nothing"
  | [a] => a
  | [a, b] => a ++ " or " ++ b
  | many => "one of " ++ ", ".intercalate many

def DecodeError.message : DecodeError → String
  | .text cause => cause.message
  | .invalidType found expected => "invalid type: " ++ found.describe ++ ", expected " ++ expected
  | .invalidValue found expected => "invalid value: " ++ found.describe ++ ", expected " ++ expected
  | .invalidLength n expected => "invalid length " ++ toString n ++ ", expected " ++ expected
  | .missingField name => "missing field `" ++ name ++ "`"
  | .duplicateField name => "duplicate field `" ++ name ++ "`"
  | .unknownVariant name expected => "unknown variant `" ++ name ++ "`, expected " ++ oneOf expected
  | .refused reason => reason

/-- Reads a value from a part of a document, under a number of levels that may still be entered. -/
def Decoder (α : Type) := Nat → Doc → Except DecodeError α

/-- The levels that a document starts with; entering the last of them is refused. -/
def startLevels : Nat := 128

/-- The levels left inside an array or object. -/
def enterLevel (levels : Nat) : Except DecodeError Nat :=
  if levels ≤ 1 then .error (.text .nestedTooDeeply) else .ok (levels - 1)

/-- The report that a part is not of the expected kind; a fault of the text comes first. -/
def mismatch (expected : String) : Doc → DecodeError
  | .null => .invalidType .null expected
  | .bool b => .invalidType (.bool b) expected
  | .int n => .invalidType (.int n) expected
  | .float x => .invalidType (.float x) expected
  | .hugeNumber => .text .numberOutOfRange
  | .str (.ok s) => .invalidType (.str s) expected
  | .str (.error e) => .text e
  | .seq _ _ => .invalidType .sequence expected
  | .map _ _ => .invalidType .map expected
  | .bad fault => .text fault.reading

/-! ### Skipping and plain values -/

def stopSkipping : Option Fault → Except DecodeError Unit
  | none => .ok ()
  | some fault => .error (.text fault.skipping)

def stopReading : Option Fault → Except DecodeError Unit
  | none => .ok ()
  | some fault => .error (.text fault.reading)

mutual

/-- Passes over a part whose content does not matter, at any depth. -/
def skip : Doc → Except DecodeError Unit
  | .seq items stop => do skipItems items; stopSkipping stop
  | .map fields stop => do skipFields fields; stopSkipping stop
  | .bad fault => .error (.text fault.skipping)
  | _ => .ok ()
termination_by structural d => d

def skipItems : List Doc → Except DecodeError Unit
  | [] => .ok ()
  | d :: rest => do skip d; skipItems rest
termination_by structural ds => ds

def skipFields : List (Except TextError String × Doc) → Except DecodeError Unit
  | [] => .ok ()
  | f :: rest => do skipField f; skipFields rest
termination_by structural fs => fs

def skipField : Except TextError String × Doc → Except DecodeError Unit
  | (_, d) => skip d
termination_by structural f => f

end

def textOf : Except TextError String → Except DecodeError String
  | .ok s => .ok s
  | .error e => .error (.text e)

mutual

/-- Any value. Of two fields of one key the later one counts. -/
def readAny (levels : Nat) : Doc → Except DecodeError Json
  | .null => .ok .null
  | .bool b => .ok (.bool b)
  | .int n => .ok (.int n)
  | .float x => .ok (.float x)
  | .hugeNumber => .error (.text .numberOutOfRange)
  | .str s => do return .str (← textOf s)
  | .seq items stop => do
    let inner ← enterLevel levels
    let values ← readAnyItems inner items
    stopReading stop
    return .arr values
  | .map fields stop => do
    let inner ← enterLevel levels
    let values ← readAnyFields inner fields
    stopReading stop
    return ofFields values
  | .bad fault => .error (.text fault.reading)
termination_by structural d => d

def readAnyItems (levels : Nat) : List Doc → Except DecodeError (List Json)
  | [] => .ok []
  | d :: rest => do
    let v ← readAny levels d
    let vs ← readAnyItems levels rest
    return v :: vs
termination_by structural ds => ds

def readAnyFields (levels : Nat) :
    List (Except TextError String × Doc) → Except DecodeError (List (String × Json))
  | [] => .ok []
  | f :: rest => do
    let v ← readAnyField levels f
    let vs ← readAnyFields levels rest
    return v :: vs
termination_by structural fs => fs

def readAnyField (levels : Nat) :
    Except TextError String × Doc → Except DecodeError (String × Json)
  | (k, d) => do
    let key ← textOf k
    return (key, ← readAny levels d)
termination_by structural f => f

end

namespace Decoder

def any : Decoder Json := readAny

def map (f : α → β) (d : Decoder α) : Decoder β := fun levels doc => (d levels doc).map f

/-- Refuses or converts what has been read. -/
def check (f : α → Except String β) (d : Decoder α) : Decoder β := fun levels doc => do
  match f (← d levels doc) with
  | .ok b => .ok b
  | .error reason => .error (.refused reason)

def bool : Decoder Bool := fun _ doc =>
  match doc with
  | .bool b => .ok b
  | other => .error (mismatch "a boolean" other)

def string : Decoder String := fun _ doc =>
  match doc with
  | .str (.ok s) => .ok s
  | other => .error (mismatch "a string" other)

/-- A whole number between `low` and `high`; a number written with a point or exponent is none. -/
def intIn (kind : String) (low high : Int) : Decoder Int := fun _ doc =>
  match doc with
  | .int n => if low ≤ n ∧ n ≤ high then .ok n else .error (.invalidValue (.int n) kind)
  | other => .error (mismatch kind other)

def u64 : Decoder Nat := (intIn "u64" 0 (UInt64.size - 1)).map Int.toNat

def u32 : Decoder Nat := (intIn "u32" 0 (UInt32.size - 1)).map Int.toNat

def usize : Decoder Nat := (intIn "usize" 0 (UInt64.size - 1)).map Int.toNat

def i64 : Decoder Int := intIn "i64" (-(UInt64.size / 2)) (UInt64.size / 2 - 1)

/-- A number as a double; a whole number is rounded to the nearest one. -/
def f64 : Decoder Binary64 := fun _ doc =>
  match doc with
  | .int n => .ok (.ofInt n)
  | .float x => .ok x
  | other => .error (mismatch "f64" other)

/-- `null` or a value. -/
def optional (d : Decoder α) : Decoder (Option α) := fun levels doc =>
  match doc with
  | .null => .ok none
  | other => (d levels other).map some

/-- The items of an array, each read by `d`. -/
def list (d : Decoder α) : Decoder (List α) := fun levels doc =>
  match doc with
  | .seq items stop => do
    let inner ← enterLevel levels
    let values ← items.mapM (d inner)
    stopReading stop
    return values
  | other => .error (mismatch "a sequence" other)

/-- The end of an object with a single field. -/
def closeSingle (more : List (Except TextError String × Doc)) (stop : Option Fault) :
    Except DecodeError Unit :=
  match more, stop with
  | [], none => .ok ()
  | [], some ⟨.endInObject, _⟩ => .error (.text .endInObject)
  | _, _ => .error (.text .valueExpected)

/-- One of several names, given as a text or as an object with that one key and the value `null`. -/
def variant (choices : List (String × α)) : Decoder α := fun levels doc =>
  let choose (name : String) : Except DecodeError α :=
    match choices.lookup name with
    | some a => .ok a
    | none => .error (.unknownVariant name (choices.map (·.1)))
  match doc with
  | .str s => do choose (← textOf s)
  | .map fields stop => do
    let _ ← enterLevel levels
    match fields with
    | [] =>
      match stop with
      | some ⟨.endInObject, _⟩ => .error (.text .endInValue)
      | some ⟨.keyExpected, _⟩ => .error (.text .valueExpected)
      | some fault => .error (.text fault.reading)
      | none => .error (.text .valueExpected)
    | (key, value) :: more =>
      let a ← choose (← textOf key)
      match value with
      | .null => pure ()
      | other => throw (mismatch "unit" other)
      closeSingle more stop
      return a
  | .bad ⟨.endInValue, _⟩ => .error (.text .endInValue)
  | .bad ⟨.endInString, _⟩ => .error (.text .endInString)
  | .bad ⟨.invalidEscape, _⟩ => .error (.text .invalidEscape)
  | .bad ⟨.controlCharacter, _⟩ => .error (.text .controlCharacter)
  | _ => .error (.text .valueExpected)

end Decoder

/-! ### Records -/

/-- Whether a record may do without a field: never, only when it is given as an object, or always. -/
inductive Absence
  | refused
  | allowedByName
  | allowed
deriving DecidableEq

/-- A field of a record type: reading it gives the change that it makes to the record. -/
structure Field (ρ : Type) where
  name : String
  absence : Absence
  read : Decoder (ρ → ρ)

/-- A field that must be given. -/
def Field.required (name : String) (d : Decoder α) (set : α → ρ → ρ) : Field ρ :=
  ⟨name, .refused, d.map set⟩

/-- A field that has a default. -/
def Field.defaulted (name : String) (d : Decoder α) (set : α → ρ → ρ) : Field ρ :=
  ⟨name, .allowed, d.map set⟩

/-- A field that may be `null`, and may be left out of an object. -/
def Field.nullable (name : String) (d : Decoder α) (set : Option α → ρ → ρ) : Field ρ :=
  ⟨name, .allowedByName, d.optional.map set⟩

/-- A record type: its name in messages, its fields in order, and the record before any is read. -/
structure Shape (ρ : Type) where
  name : String
  fields : List (Field ρ)
  start : ρ

def countText (n : Nat) : String := toString n ++ (if n = 1 then " element" else " elements")

namespace Shape

def sizeText (shape : Shape ρ) : String :=
  shape.name ++ " with " ++ countText shape.fields.length

/-- Reads the fields from an array, as far as it goes. -/
def readItems (shape : Shape ρ) (levels : Nat) (stop : Option Fault) :
    Nat → List (Field ρ) → List Doc → ρ → Except DecodeError (ρ × List Doc)
  | _, [], items, record => .ok (record, items)
  | index, field :: fields, item :: items, record => do
    let update ← field.read levels item
    readItems shape levels stop (index + 1) fields items (update record)
  | index, field :: fields, [], record => do
    stopReading stop
    if field.absence = .allowed then readItems shape levels stop (index + 1) fields [] record
    else .error (.invalidLength index shape.sizeText)

/-- The end of an array all of whose fields have been read. -/
def closeItems (rest : List Doc) (stop : Option Fault) : Except DecodeError Unit :=
  match rest, stop with
  | [], none => .ok ()
  | [], some ⟨.trailingComma, _⟩ => .error (.text .trailingComma)
  | [], some ⟨.endInArray, _⟩ => .error (.text .endInArray)
  | _, _ => .error (.text .trailingCharacters)

/-- Reads the fields of an object in their order; `seen` holds the names read so far. -/
def readFields (shape : Shape ρ) (levels : Nat) :
    List (Except TextError String × Doc) → List String → ρ →
      Except DecodeError (List String × ρ)
  | [], seen, record => .ok (seen, record)
  | (key, value) :: rest, seen, record => do
    let name ← textOf key
    match shape.fields.find? (·.name == name) with
    | none =>
      skip value
      readFields shape levels rest seen record
    | some field =>
      if seen.contains name then throw (.duplicateField name)
      let update ← field.read levels value
      readFields shape levels rest (name :: seen) (update record)

/-- The first field that an object may not leave out but does. -/
def missing? (shape : Shape ρ) (seen : List String) : Option String :=
  (shape.fields.find? fun f => f.absence = .refused && !seen.contains f.name).map (·.name)

/-- A record, given as an object or as an array. -/
def decoder (shape : Shape ρ) : Decoder ρ := fun levels doc =>
  match doc with
  | .seq items stop => do
    let inner ← enterLevel levels
    let (record, rest) ← shape.readItems inner stop 0 shape.fields items shape.start
    closeItems rest stop
    return record
  | .map fields stop => do
    let inner ← enterLevel levels
    let (seen, record) ← shape.readFields inner fields [] shape.start
    stopReading stop
    match shape.missing? seen with
    | some name => throw (.missingField name)
    | none => return record
  | other => .error (mismatch shape.name other)

end Shape

/-- Two values in an array. -/
def Decoder.pair (first : Decoder α) (second : Decoder β) : Decoder (α × β) := fun levels doc =>
  let short (length : Nat) (stop : Option Fault) : Except DecodeError (α × β) := do
    stopReading stop
    throw (.invalidLength length "a tuple of size 2")
  match doc with
  | .seq [] stop => do
    let _ ← enterLevel levels
    short 0 stop
  | .seq (x :: rest) stop => do
    let inner ← enterLevel levels
    let a ← first inner x
    match rest with
    | [] => short 1 stop
    | y :: more =>
      let b ← second inner y
      Shape.closeItems more stop
      return (a, b)
  | other => .error (mismatch "a tuple of size 2" other)

/-- Decodes a whole document: behind the value only blanks may follow. -/
def Decoder.ofText (d : Decoder α) (text : String) : Except DecodeError α := do
  let document := Document.ofText text
  let value ← d startLevels document.root
  if document.trailing then throw (.text .trailingCharacters)
  return value

/-- Decodes a value as the document that would be read from its text. -/
def Decoder.ofJson (d : Decoder α) (value : Json) : Except DecodeError α :=
  d startLevels value.toDoc

end Vetting.Json
