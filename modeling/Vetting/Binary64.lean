/-!
Double-precision numbers as the 64 bits of their interchange format, with exact arithmetic behind
every operation: a finite number is a whole multiple of the unit `2 ^ (-1074)`, results are formed
exactly over the integers, and `Binary64.roundUnits` rounds once, to nearest with ties to even.
-/

namespace Vetting

/-- A double-precision number, given by the bits of its interchange format. -/
structure Binary64 where
  bits : UInt64
deriving DecidableEq

/-- `num / den` rounded to the nearest whole number, a tie going to the even neighbour. -/
def roundHalfEven (num den : Nat) : Nat :=
  let q := num / den
  let twice := 2 * (num % den)
  if twice < den then q
  else if den < twice then q + 1
  else q + q % 2

namespace Binary64

/-- How many fractions there are for each exponent. -/
def fractionCount : Nat := 1 <<< 52

/-- The place of the sign bit. -/
def signBit : Nat := 1 <<< 63

/-- The magnitude bits of infinity: every larger magnitude is not a number. -/
def infinityBits : Nat := 2047 * fractionCount

/-- The bits without the sign. On numbers their order is the order of magnitudes. -/
def magnitudeBits (x : Binary64) : Nat := x.bits.toNat % signBit

/-- Whether the sign bit is set. -/
def isNegative (x : Binary64) : Bool := signBit ≤ x.bits.toNat

def isNaN (x : Binary64) : Bool := infinityBits < x.magnitudeBits

def isInfinite (x : Binary64) : Bool := x.magnitudeBits = infinityBits

def isFinite (x : Binary64) : Bool := x.magnitudeBits < infinityBits

theorem isNaN_eq_false_of_isFinite {x : Binary64} (h : x.isFinite = true) : x.isNaN = false := by
  simp only [isFinite, isNaN, decide_eq_true_eq, decide_eq_false_iff_not] at *
  omega

def isZero (x : Binary64) : Bool := x.magnitudeBits = 0

/-- The number with the given sign and magnitude bits. -/
def ofSignMagnitude (negative : Bool) (magnitude : Nat) : Binary64 :=
  ⟨UInt64.ofNat (if negative then signBit + magnitude else magnitude)⟩

/-- A magnitude, given by its bits, in units of `2 ^ (-1074)`. -/
def unitsOfBits (magnitude : Nat) : Nat :=
  let biased := magnitude / fractionCount
  let fraction := magnitude % fractionCount
  if biased = 0 then fraction else (fractionCount + fraction) <<< (biased - 1)

/-- The magnitude of a finite number in units of `2 ^ (-1074)`. -/
def units (x : Binary64) : Nat := unitsOfBits x.magnitudeBits

/-- A finite number in units of `2 ^ (-1074)`. -/
def signedUnits (x : Binary64) : Int := if x.isNegative then -(x.units : Int) else x.units

/-- The magnitude bits nearest to `num / den` units, a tie going to the even neighbour; what is too
large for a finite number becomes infinity.

The quotient is rounded on the grid whose steps are `2 ^ k` units, the finest on which it has at most
53 digits. A quotient that rounds up to 54 digits carries into the exponent by itself, because
neighbouring magnitudes have neighbouring bits. -/
def roundUnits (num den : Nat) : Nat :=
  let k := Nat.log2 (num / den) - 52
  min infinityBits (k * fractionCount + roundHalfEven num (den <<< k))

/-- How many bits lie below the point in the unit of magnitudes. -/
def unitShift : Nat := 1074

/-- The double nearest to `± num / den`. -/
def ofRatio (negative : Bool) (num den : Nat) : Binary64 :=
  ofSignMagnitude negative (roundUnits (num <<< unitShift) den)

def zero : Binary64 := ⟨0⟩

def negZero : Binary64 := ofSignMagnitude true 0

def infinity : Binary64 := ofSignMagnitude false infinityBits

def negInfinity : Binary64 := ofSignMagnitude true infinityBits

def nan : Binary64 := ofSignMagnitude false (infinityBits + fractionCount / 2)

def ofNat (n : Nat) : Binary64 := ofRatio false n 1

def ofInt (n : Int) : Binary64 := ofRatio (n < 0) n.natAbs 1

/-- The double nearest to `± digits * 10 ^ exponent`. -/
def ofDecimal (negative : Bool) (digits : Nat) (exponent : Int) : Binary64 :=
  if 0 ≤ exponent then ofRatio negative (digits * Nat.pow 10 exponent.toNat) 1
  else ofRatio negative digits (Nat.pow 10 (-exponent).toNat)

def neg (x : Binary64) : Binary64 :=
  ofSignMagnitude (!x.isNegative) x.magnitudeBits

def abs (x : Binary64) : Binary64 := ofSignMagnitude false x.magnitudeBits

/-- The double nearest to a whole number of units; `zeroSign` is the sign that zero gets. -/
def ofSignedUnits (zeroSign : Bool) (n : Int) : Binary64 :=
  if n = 0 then ofSignMagnitude zeroSign 0
  else ofSignMagnitude (n < 0) (roundUnits n.natAbs 1)

protected def add (x y : Binary64) : Binary64 :=
  if x.isNaN || y.isNaN then nan
  else if x.isInfinite then
    if y.isInfinite && x.isNegative != y.isNegative then nan else x
  else if y.isInfinite then y
  else ofSignedUnits (x.isNegative && y.isNegative) (x.signedUnits + y.signedUnits)

protected def sub (x y : Binary64) : Binary64 := x.add y.neg

protected def mul (x y : Binary64) : Binary64 :=
  let negative := x.isNegative != y.isNegative
  if x.isNaN || y.isNaN then nan
  else if x.isInfinite || y.isInfinite then
    if x.isZero || y.isZero then nan else ofSignMagnitude negative infinityBits
  else ofSignMagnitude negative (roundUnits (x.units * y.units) (1 <<< unitShift))

protected def div (x y : Binary64) : Binary64 :=
  let negative := x.isNegative != y.isNegative
  if x.isNaN || y.isNaN then nan
  else if x.isInfinite then
    if y.isInfinite then nan else ofSignMagnitude negative infinityBits
  else if y.isInfinite then ofSignMagnitude negative 0
  else if y.isZero then
    if x.isZero then nan else ofSignMagnitude negative infinityBits
  else ofSignMagnitude negative (roundUnits (x.units <<< unitShift) y.units)

instance : Add Binary64 := ⟨Binary64.add⟩
instance : Sub Binary64 := ⟨Binary64.sub⟩
instance : Mul Binary64 := ⟨Binary64.mul⟩
instance : Div Binary64 := ⟨Binary64.div⟩
instance : Neg Binary64 := ⟨Binary64.neg⟩

/-- The place of a number that is not a NaN on the line of magnitude bits, where both zeros meet. -/
def rank (x : Binary64) : Int :=
  if x.isNegative then -(x.magnitudeBits : Int) else x.magnitudeBits

/-- Numeric equality: the two zeros are equal, and a NaN differs from everything. -/
def numEq (x y : Binary64) : Bool := !x.isNaN && !y.isNaN && x.rank == y.rank

/-- Numeric order, false as soon as a NaN takes part. -/
def numLt (x y : Binary64) : Bool := !x.isNaN && !y.isNaN && decide (x.rank < y.rank)

def numLe (x y : Binary64) : Bool := !x.isNaN && !y.isNaN && decide (x.rank ≤ y.rank)

/-- On finite numbers the order is total. -/
theorem numLe_of_numLt_eq_false {x y : Binary64} (hx : x.isFinite = true) (hy : y.isFinite = true)
    (h : y.numLt x = false) : x.numLe y = true := by
  simp only [numLt, numLe, isNaN_eq_false_of_isFinite hx, isNaN_eq_false_of_isFinite hy, Bool.not_false, Bool.true_and,
    decide_eq_false_iff_not, decide_eq_true_eq] at *
  omega

/-- The place of every bit pattern in the total order that puts `-0` before `0` and NaNs outermost. -/
def totalRank (x : Binary64) : Int :=
  if x.isNegative then -(x.magnitudeBits : Int) - 1 else x.magnitudeBits

def totalCompare (x y : Binary64) : Ordering := compare x.totalRank y.totalRank

/-- The number one place down on the line of bits; meaningful for positive finite numbers. -/
def predecessor (x : Binary64) : Binary64 := ⟨x.bits - 1⟩

end Binary64

end Vetting
