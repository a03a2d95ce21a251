import Vetting.Binary64
import Vetting.Random.WordStream

/-!
Uniform draws from a stream of words: whole numbers of a range by rejection, doubles of a range by
scaling. A range that is empty, or too wide for a double, is refused.
-/

namespace Vetting

/-- Why nothing can be drawn from a range. -/
inductive RangeFault
  | empty
  | tooWide
deriving DecidableEq

/-- A computation that draws words and can meet a range without a draw. -/
abbrev Draw (α : Type) := StateT WordStream (Except RangeFault) α

namespace Draw

def word : Draw UInt32 := fun s => .ok s.next

def word64 : Draw Nat := fun s => .ok s.next64

/-- The words that `below` looks at before it takes one as it comes. Each is refused with a chance
below one half. -/
def attempts : Nat := 512

/-- The part of a product of 64-bit numbers that counts, once the other part is at most `zone`. -/
def belowZone (size zone : Nat) : Nat → Draw Nat
  | 0 => do
    let v ← word64
    return v * size / UInt64.size
  | fuel + 1 => do
    let v ← word64
    if v * size % UInt64.size ≤ zone then return v * size / UInt64.size
    else belowZone size zone fuel

/-- A number below `size`, which is positive and below `2 ^ 64`. -/
def below (size : Nat) : Draw Nat :=
  belowZone size (size <<< (63 - Nat.log2 size) - 1) attempts

/-- A whole number from `low` to `high`. The range of all signed 64-bit numbers takes its words as
they come. -/
def int (low high : Int) : Draw Int := do
  if high < low then throw .empty
  let size := (high - low + 1).toNat
  if UInt64.size ≤ size then return Int.bmod (← word64) UInt64.size
  else return low + (← below size)

/-- A number from zero to `high`. -/
def nat (high : Nat) : Draw Nat :=
  if UInt64.size ≤ high + 1 then word64 else below (high + 1)

/-- The top bit of a word. -/
def bool : Draw Bool := do return UInt32.size / 2 ≤ (← word).toNat

/-- The largest value of a fraction of 52 bits. -/
def maxFraction : Binary64 := .ofRatio false (Binary64.fractionCount - 1) Binary64.fractionCount

/-- Lowers a scale step by step until the largest fraction stays within the range. The fuel is the number of steps
that lead down to zero, where it does. -/
def fitScale (low high : Binary64) : Nat → Binary64 → Binary64
  | 0, scale => scale
  | fuel + 1, scale =>
    if high.numLt (scale * maxFraction + low) then fitScale low high fuel scale.predecessor
    else scale

/-- A double from `low` to `high`. -/
def float (low high : Binary64) : Draw Binary64 := do
  if !low.numLe high then throw .empty
  let scale := (high - low) / maxFraction
  if !scale.isFinite then throw .tooWide
  let scale := fitScale low high scale.magnitudeBits scale
  let v ← word64
  return Binary64.ofRatio false (v >>> 12) Binary64.fractionCount * scale + low

end Draw

end Vetting
