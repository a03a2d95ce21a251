/-!
UTF-8 read with forgiveness: what is no character becomes the replacement character, one for each
longest start of a character that is cut short, and one for each byte that starts none.
-/

namespace Vetting.Text

/-- Stands for bytes that are no character. -/
def replacement : Char := '\uFFFD'

/-- The range of bytes that may follow a first byte, and how many further bytes the character has; none
for a byte that starts no longer character. -/
def secondByte? (first : UInt8) : Option (UInt8 × UInt8 × Nat) :=
  if first < 0xC2 then none
  else if first ≤ 0xDF then some (0x80, 0xBF, 1)
  else if first = 0xE0 then some (0xA0, 0xBF, 2)
  else if first = 0xED then some (0x80, 0x9F, 2)
  else if first ≤ 0xEF then some (0x80, 0xBF, 2)
  else if first = 0xF0 then some (0x90, 0xBF, 3)
  else if first ≤ 0xF3 then some (0x80, 0xBF, 3)
  else if first = 0xF4 then some (0x80, 0x8F, 3)
  else none

/-- The payload of a first byte that is followed by `more` bytes. -/
def payload (first : UInt8) (more : Nat) : Nat := first.toNat % (1 <<< (6 - more))

/-- Takes up to `more` further bytes of a character, of which the next one lies in the given range, and
counts those that fit. -/
def tailBytes (low high : UInt8) (value taken : Nat) : Nat → List UInt8 → Char × Nat
  | 0, _ => (Char.ofNat value, taken)
  | _ + 1, [] => (replacement, taken)
  | more + 1, b :: rest =>
    if low ≤ b && b ≤ high then
      tailBytes 0x80 0xBF (value * 64 + b.toNat % 64) (taken + 1) more rest
    else (replacement, taken)

/-- The character that bytes start with, and how many bytes behind the first belong to it. -/
def firstChar (first : UInt8) (rest : List UInt8) : Char × Nat :=
  if first < 0x80 then (Char.ofNat first.toNat, 0)
  else match secondByte? first with
    | some (low, high, more) => tailBytes low high (payload first more) 0 more rest
    | none => (replacement, 0)

/-- The characters of bytes behind those seen, which are in reverse. -/
def decodeFrom (seen : List Char) : List UInt8 → List Char
  | [] => seen.reverse
  | b :: rest =>
    let (c, more) := firstChar b rest
    decodeFrom (c :: seen) (rest.drop more)
termination_by bytes => bytes.length
decreasing_by simp only [List.length_drop, List.length_cons]; omega

/-- The text that bytes stand for. -/
def ofUtf8 (bytes : List UInt8) : List Char := decodeFrom [] bytes

end Vetting.Text
