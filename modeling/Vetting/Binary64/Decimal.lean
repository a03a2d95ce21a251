import Vetting.Binary64

/-!
Decimal text of double-precision numbers: the fewest digits that read back as the same number, in
three notations, and a fixed number of places rounded from the exact value.
-/

namespace Vetting

/-- The number `digits * 10 ^ exponent`. -/
structure Decimal where
  digits : Nat
  exponent : Int
deriving DecidableEq

namespace Decimal

/-- The exponent of the leading decimal digit of `num / den`, both positive: the `e` with
`10 ^ e ≤ num / den < 10 ^ (e + 1)`. -/
def leadingExponent (num den : Nat) : Int :=
  if den ≤ num then (Nat.toDigits 10 (num / den)).length - 1
  else -((Nat.toDigits 10 ((den + num - 1) / num - 1)).length : Int)

/-- `num / den` in whole steps of `10 ^ exponent`, cut off, with what is left of the numerator and
the denominator that both results refer to. -/
def onGrid (num den : Nat) (exponent : Int) : Nat × Nat × Nat :=
  let n := if 0 ≤ exponent then num else num * Nat.pow 10 (-exponent).toNat
  let d := if 0 ≤ exponent then den * Nat.pow 10 exponent.toNat else den
  (n / d, n % d, d)

/-- Moves trailing zeros of the digits into the exponent; zero keeps its exponent. -/
def stripZeros : Nat → Decimal → Decimal
  | 0, x => x
  | fuel + 1, x =>
    if x.digits ≠ 0 ∧ x.digits % 10 = 0 then stripZeros fuel ⟨x.digits / 10, x.exponent + 1⟩ else x

end Decimal

namespace Binary64

/-- The decimal with at most `count` digits, on the grid that `count` digits span, that reads back as
the magnitude of `x`: of the two neighbours of the value the nearer one that does. -/
def decimalWithDigits? (x : Binary64) (leading : Int) (count : Nat) : Option Decimal :=
  let exponent := leading - (count - 1 : Nat)
  let (low, rest, den) := Decimal.onGrid x.units (1 <<< unitShift) exponent
  let readsBack (d : Nat) : Bool := ofDecimal false d exponent == x.abs
  let lowFirst := 2 * rest < den || (2 * rest = den && low % 2 = 0)
  let order := if lowFirst then [low, low + 1] else [low + 1, low]
  (order.find? readsBack).map fun d => ⟨d, exponent⟩

/-- The fewest decimal digits that read back as the magnitude of a finite number. Seventeen always
suffice. -/
def shortest (x : Binary64) : Decimal :=
  if x.isZero then ⟨0, 0⟩
  else
    let leading := Decimal.leadingExponent x.units (1 <<< unitShift)
    let found := (List.range' 1 17).findSome? (x.decimalWithDigits? leading)
    Decimal.stripZeros 20 (found.getD ⟨x.units, 0⟩)

/-- The digits with a point, no exponent: `wholeSuffix` follows a number without a fraction. -/
def positional (d : Decimal) (wholeSuffix : String) : String :=
  let text := String.ofList (Nat.toDigits 10 d.digits)
  if 0 ≤ d.exponent then
    text ++ "".pushn '0' d.exponent.toNat ++ wholeSuffix
  else
    let places := (-d.exponent).toNat
    let padded := "".pushn '0' (places + 1 - text.length) ++ text
    (padded.take (padded.length - places)).copy ++ "." ++ (padded.drop (padded.length - places)).copy

/-- One digit, the others after a point, and the exponent with its sign. -/
def scientific (d : Decimal) : String :=
  match Nat.toDigits 10 d.digits with
  | [] => ""
  | first :: more =>
    let exponent := d.exponent + more.length
    let fraction := if more.isEmpty then "" else "." ++ String.ofList more
    let sign := if exponent < 0 then "-" else "+"
    first.toString ++ fraction ++ "e" ++ sign ++ toString exponent.natAbs

/-- The text in a document: positional from `1e-5` up to below `1e16`, with at least one decimal
place, and scientific outside that range. -/
def documentText (x : Binary64) : String :=
  let d := x.shortest
  let leading := d.exponent + (Nat.toDigits 10 d.digits).length - 1
  let body := if d.digits = 0 ∨ (-5 ≤ leading ∧ leading < 16) then positional d ".0" else scientific d
  if x.isNegative then "-" ++ body else body

/-- The text in a message: never an exponent, and no point behind a whole number. -/
def plainText (x : Binary64) : String :=
  if x.isNaN then "NaN"
  else
    let body := if x.isInfinite then "inf" else positional x.shortest ""
    if x.isNegative then "-" ++ body else body

/-- The exact value rounded to `places` decimal places, a tie going to the even digit. -/
def fixedText (places : Nat) (x : Binary64) : String :=
  if x.isNaN then "NaN"
  else
    let body :=
      if x.isInfinite then "inf"
      else positional ⟨roundHalfEven (x.units * Nat.pow 10 places) (1 <<< unitShift), -places⟩ ""
    if x.isNegative then "-" ++ body else body

end Binary64

end Vetting
