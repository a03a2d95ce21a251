import Vetting.Binary64

/-!
Lengths of time in whole nanoseconds, and their exchange with double-precision seconds and
milliseconds. Reading rounds to the nearest nanosecond, a tie going to the even neighbour.
-/

namespace Vetting

/-- A length of time. -/
structure Duration where
  nanos : Nat
deriving DecidableEq

namespace Duration

def nanosPerSecond : Nat := 1_000_000_000

def nanosPerMilli : Nat := 1_000_000

def zero : Duration := ⟨0⟩

def ofSecs (n : Nat) : Duration := ⟨n * nanosPerSecond⟩

def ofMillis (n : Nat) : Duration := ⟨n * nanosPerMilli⟩

def ofParts (secs nanos : Nat) : Duration := ⟨secs * nanosPerSecond + nanos⟩

/-- Whole seconds. -/
def secs (d : Duration) : Nat := d.nanos / nanosPerSecond

/-- What is left beyond the whole seconds. -/
def subsecNanos (d : Duration) : Nat := d.nanos % nanosPerSecond

/-- The longest length of time: its whole seconds just fit 64 bits. -/
def longest : Duration := ⟨UInt64.size * nanosPerSecond - 1⟩

/-- The sum, cut off at `longest`. -/
def saturatingAdd (a b : Duration) : Duration := ⟨min longest.nanos (a.nanos + b.nanos)⟩

theorem saturatingAdd_comm (a b : Duration) : a.saturatingAdd b = b.saturatingAdd a := by
  rw [saturatingAdd, saturatingAdd, Nat.add_comm]

/-- The difference, cut off at zero. -/
def saturatingSub (a b : Duration) : Duration := ⟨a.nanos - b.nanos⟩

instance : LE Duration := ⟨fun a b => a.nanos ≤ b.nanos⟩
instance : LT Duration := ⟨fun a b => a.nanos < b.nanos⟩
instance (a b : Duration) : Decidable (a ≤ b) := inferInstanceAs (Decidable (a.nanos ≤ b.nanos))
instance (a b : Duration) : Decidable (a < b) := inferInstanceAs (Decidable (a.nanos < b.nanos))

theorem lt_of_le_of_ne {a b : Duration} (h : a ≤ b) (hne : a ≠ b) : a < b := by
  cases a
  cases b
  exact Nat.lt_of_le_of_ne h fun heq => hne (congrArg mk heq)

theorem le_saturatingAdd_right {a b : Duration} (h : b ≤ longest) : b ≤ a.saturatingAdd b :=
  Nat.le_min.mpr ⟨h, Nat.le_add_left ..⟩

/-- Nothing is gained by adding to the longest time. -/
theorem saturatingAdd_eq_right_iff {a b : Duration} (h : b ≤ longest) :
    a.saturatingAdd b = b ↔ a = zero ∨ b = longest := by
  cases a with | mk m =>
  cases b with | mk n =>
  simp only [saturatingAdd, zero, mk.injEq]
  constructor
  · intro hs
    by_cases hm : m = 0
    · exact .inl hm
    · have hn : n = longest.nanos := by omega
      exact .inr (congrArg mk hn)
  · rintro (hm | hn)
    · have h : n ≤ longest.nanos := h
      omega
    · have hn : n = longest.nanos := congrArg nanos hn
      omega

/-- Seconds: the whole seconds and the fraction are rounded each, and so is their sum. -/
def toSeconds (d : Duration) : Binary64 :=
  Binary64.ofNat d.secs + Binary64.ofNat d.subsecNanos / Binary64.ofNat nanosPerSecond

def toMillis (d : Duration) : Binary64 := d.toSeconds * Binary64.ofNat 1000

/-- Why a number of seconds is no length of time. -/
inductive RangeError
  | negative
  | tooLong
deriving DecidableEq

def RangeError.message : RangeError → String
  | .negative => "cannot convert float seconds to Duration: value is negative"
  | .tooLong => "cannot convert float seconds to Duration: value is either too big or NaN"

/-- The length of time nearest to a number of seconds. -/
def ofSeconds (x : Binary64) : Except RangeError Duration :=
  if x.numLt .zero then .error .negative
  else if x.isFinite && x.numLt (.ofNat UInt64.size) then
    .ok ⟨roundHalfEven (x.units * nanosPerSecond) (1 <<< Binary64.unitShift)⟩
  else .error .tooLong

def ofMilliseconds (x : Binary64) : Except RangeError Duration :=
  ofSeconds (x / Binary64.ofNat 1000)

end Duration

end Vetting
