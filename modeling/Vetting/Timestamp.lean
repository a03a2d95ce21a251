import Vetting.Duration

/-!
Moments in universal time: reading them from calendar text with an offset, and writing them back.
-/

namespace Vetting

/-- A moment: whole seconds since the start of 1970 in universal time, and nanoseconds. -/
structure Timestamp where
  seconds : Int
  nanos : Nat
deriving DecidableEq

namespace Timestamp

/-- Why a text names no moment. -/
inductive ParseError
  | invalid
  | tooShort
  | tooLong
  | outOfRange
deriving DecidableEq

def ParseError.message : ParseError → String
  | .invalid => "input contains invalid characters"
  | .tooShort => "premature end of input"
  | .tooLong => "trailing input"
  | .outOfRange => "input is out of range"

/-- Days from the start of 1970 to a date of the Gregorian calendar. -/
def daysOfDate (year : Int) (month day : Nat) : Int :=
  let y := if month ≤ 2 then year - 1 else year
  let era := y.fdiv 400
  let yearOfEra := y - era * 400
  let monthFromMarch : Int := if 2 < month then month - 3 else month + 9
  let dayOfYear := (153 * monthFromMarch + 2).fdiv 5 + day - 1
  let dayOfEra := yearOfEra * 365 + yearOfEra.fdiv 4 - yearOfEra.fdiv 100 + dayOfYear
  era * 146097 + dayOfEra - 719468

/-- The date that lies a number of days after the start of 1970. -/
def dateOfDays (days : Int) : Int × Nat × Nat :=
  let z := days + 719468
  let era := z.fdiv 146097
  let doe := z - era * 146097
  let yoe := (doe - doe.fdiv 1460 + doe.fdiv 36524 - doe.fdiv 146096).fdiv 365
  let doy := doe - (365 * yoe + yoe.fdiv 4 - yoe.fdiv 100)
  let mp := (5 * doy + 2).fdiv 153
  let day := doy - (153 * mp + 2).fdiv 5 + 1
  let month := if mp < 10 then mp + 3 else mp - 9
  let year := yoe + era * 400
  (if month ≤ 2 then year + 1 else year, month.toNat, day.toNat)

def isLeap (year : Int) : Bool :=
  year.fmod 4 = 0 && (year.fmod 100 ≠ 0 || year.fmod 400 = 0)

def daysInMonth (year : Int) (month : Nat) : Nat :=
  match month with
  | 2 => if isLeap year then 29 else 28
  | 4 => 30
  | 6 => 30
  | 9 => 30
  | 11 => 30
  | _ => 31

abbrev Input := List Char

def isDigit (c : Char) : Bool := '0' ≤ c && c ≤ '9'

def natOfDigits (cs : List Char) : Nat := cs.foldl (fun n c => 10 * n + (c.toNat - 48)) 0

def skipSpaces (s : Input) : Input := s.dropWhile Char.isWhitespace

/-- A number of one up to `width` digits, after spaces. -/
def number (width : Nat) (s : Input) : Except ParseError (Nat × Input) :=
  let s := skipSpaces s
  let digits := (s.take width).takeWhile isDigit
  if s.isEmpty then .error .tooShort
  else if digits.isEmpty then .error .invalid
  else .ok (natOfDigits digits, s.drop digits.length)

/-- A given character after spaces. -/
def mark (c : Char) (s : Input) : Except ParseError Input :=
  match skipSpaces s with
  | [] => .error .tooShort
  | d :: rest => if c = d then .ok rest else .error .invalid

/-- Nanoseconds from a point and digits, if there is a point; digits beyond the ninth do not count. -/
def fraction (s : Input) : Except ParseError (Nat × Input) :=
  match s with
  | '.' :: rest =>
    let digits := rest.takeWhile isDigit
    if rest.isEmpty then .error .tooShort
    else if digits.isEmpty then .error .invalid
    else
      let kept := digits.take 9
      .ok (natOfDigits kept * Nat.pow 10 (9 - kept.length), rest.drop digits.length)
  | s => .ok (0, s)

/-- Two digits at the head. -/
def twoDigits (s : Input) : Except ParseError (Nat × Input) :=
  match s with
  | a :: b :: rest => if isDigit a && isDigit b then .ok (natOfDigits [a, b], rest) else .error .invalid
  | _ => .error .tooShort

/-- Seconds east of universal time: a letter `Z`, the word `UTC`, or signed hours and minutes. -/
def offset (s : Input) : Except ParseError (Int × Input) := do
  let s := skipSpaces s
  match s with
  | [] => throw .tooShort
  | c :: rest =>
    if ((s.take 3).map Char.toUpper) = ['U', 'T', 'C'] then return (0, s.drop 3)
    if c = 'Z' || c = 'z' then return (0, rest)
    let sign : Int ← if c = '+' then pure 1 else if c = '-' then pure (-1) else throw .invalid
    let (hours, rest) ← twoDigits rest
    let rest := rest.dropWhile fun c => c = ':' || c.isWhitespace
    let (minutes, rest) ← twoDigits rest
    if 59 < minutes then throw .outOfRange
    return (sign * (hours * 3600 + minutes * 60 : Nat), rest)

/-- Reads a date, a time of day and an offset. -/
def ofText (text : String) : Except ParseError Timestamp := do
  let s := skipSpaces text.toList
  let (year, s) ← number 4 s
  let s ← mark '-' s
  let (month, s) ← number 2 s
  let s ← mark '-' s
  let (day, s) ← number 2 s
  let s ← match s with
    | 'T' :: rest => pure rest
    | 't' :: rest => pure rest
    | ' ' :: rest => pure rest
    | [] => throw .tooShort
    | _ => throw .invalid
  let (hour, s) ← number 2 s
  let s ← mark ':' s
  let (minute, s) ← number 2 s
  let s ← mark ':' s
  let (second, s) ← number 2 s
  let (nanos, s) ← fraction s
  let (east, s) ← offset s
  unless (skipSpaces s).isEmpty do throw .tooLong
  if month = 0 || 12 < month || day = 0 || daysInMonth year month < day then throw .outOfRange
  if 23 < hour || 59 < minute || 60 < second then throw .outOfRange
  let leap := if second = 60 then Duration.nanosPerSecond else 0
  let ofDay : Int := hour * 3600 + minute * 60 + min second 59
  return ⟨daysOfDate year month day * 86400 + ofDay - east, nanos + leap⟩

def padded (width n : Nat) : String :=
  let digits := toString n
  "".pushn '0' (width - digits.length) ++ digits

/-- As many groups of three decimal places as the nanoseconds need. -/
def fractionText (nanos : Nat) : String :=
  if nanos = 0 then ""
  else if nanos % 1_000_000 = 0 then "." ++ padded 3 (nanos / 1_000_000)
  else if nanos % 1000 = 0 then "." ++ padded 6 (nanos / 1000)
  else "." ++ padded 9 nanos

def yearText (year : Int) : String :=
  if 0 ≤ year ∧ year ≤ 9999 then padded 4 year.toNat
  else (if year < 0 then "-" else "+") ++ padded 4 year.natAbs

/-- The text in universal time. -/
def toText (t : Timestamp) : String :=
  let (year, month, day) := dateOfDays (t.seconds.fdiv 86400)
  let ofDay := (t.seconds.fmod 86400).toNat
  let leap := t.nanos / Duration.nanosPerSecond
  yearText year ++ "-" ++ padded 2 month ++ "-" ++ padded 2 day ++ "T"
    ++ padded 2 (ofDay / 3600) ++ ":" ++ padded 2 (ofDay / 60 % 60) ++ ":"
    ++ padded 2 (ofDay % 60 + leap) ++ fractionText (t.nanos % Duration.nanosPerSecond) ++ "Z"

end Timestamp

end Vetting
