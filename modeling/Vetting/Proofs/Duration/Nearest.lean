import Vetting.Duration
import Vetting.Proofs.Binary64.Order

/-!
# Numbers of seconds as lengths of time

`Duration.IsNearest` says what rounding to the nanosecond means: the exact number of nanoseconds is at most half a step
away, and at a tie the even neighbour is taken. There is at most one such length of time (`IsNearest.unique`).

What a number of seconds is read as is the nearest one (`isNearest_of_ofSeconds`), and every number of seconds that is
nearest to a positive length of time of up to a day is read (`ofSeconds_of_isNearest`).
-/

namespace Vetting

theorem two_mul_mod_of_tie {num den : Nat} (hden : 0 < den)
    (h : |(roundHalfEven num den : ℚ) - num / den| = 1 / 2) : 2 * (num % den) = den := by
  have hd : (0 : ℚ) < den := Nat.cast_pos.mpr hden
  have hdiv : (den : ℚ) * (num / den : Nat) + (num % den : Nat) = num := by
    exact_mod_cast Nat.div_add_mod num den
  have hquot : (num : ℚ) / den = (num / den : Nat) + (num % den : Nat) / den := by
    rw [← hdiv]
    field_simp
  obtain ⟨hlow, hhigh⟩ := roundHalfEven_bounds num den
  rw [hquot] at h
  obtain hround | hround : roundHalfEven num den = num / den ∨ roundHalfEven num den = num / den + 1 := by omega
  · have hrest : ((num % den : Nat) : ℚ) / den = 1 / 2 := by
      rw [hround, sub_add_cancel_left, abs_neg, abs_of_nonneg (by positivity)] at h
      exact h
    rw [div_eq_div_iff hd.ne' two_ne_zero, one_mul, mul_comm] at hrest
    exact_mod_cast hrest
  · have hlt : ((num % den : Nat) : ℚ) / den ≤ 1 := by
      rw [div_le_one hd]
      exact_mod_cast (Nat.mod_lt num hden).le
    have hrest : ((num % den : Nat) : ℚ) / den = 1 / 2 := by
      rw [hround, Nat.cast_add_one, add_sub_add_left_eq_sub, abs_of_nonneg (by linarith)] at h
      linarith
    rw [div_eq_div_iff hd.ne' two_ne_zero, one_mul, mul_comm] at hrest
    exact_mod_cast hrest

/-- A tie is rounded to an even number. -/
theorem roundHalfEven_even {num den : Nat} (hden : 0 < den)
    (h : |(roundHalfEven num den : ℚ) - num / den| = 1 / 2) : roundHalfEven num den % 2 = 0 := by
  have htie := two_mul_mod_of_tie hden h
  unfold roundHalfEven
  simp only [htie, lt_irrefl, if_false]
  omega

namespace Binary64

variable {x y : Binary64}

theorem signedUnits_lt_iff : x.signedUnits < y.signedUnits ↔ x.rank < y.rank := by
  rw [← not_le, signedUnits_le_iff, not_le]

theorem numLt_iff_signedUnits (hx : x.isFinite = true) (hy : y.isFinite = true) :
    x.numLt y = true ↔ x.signedUnits < y.signedUnits := by
  simp [numLt, isNaN_eq_false_of_isFinite hx, isNaN_eq_false_of_isFinite hy, signedUnits_lt_iff]

theorem zero_isFinite : zero.isFinite = true := by decide

theorem units_eq_of_nonneg (h : 0 ≤ x.signedUnits) : (x.units : ℤ) = x.signedUnits := by
  unfold signedUnits at h ⊢
  cases hsign : x.isNegative with
  | true =>
    rw [hsign, if_pos rfl] at h
    rw [if_pos rfl]
    omega
  | false => rfl

theorem signedUnits_ofNat_size :
    (ofNat UInt64.size).isFinite = true ∧
      (ofNat UInt64.size).signedUnits = UInt64.size * 2 ^ unitShift := by
  have hsize : (ofNat UInt64.size).Approximates UInt64.size 0 :=
    approximates_ofNat (e := 12) (by decide) (by decide) (by decide)
  refine ⟨hsize.finite, ?_⟩
  have hvalue := hsize.value_eq
  rw [value, div_eq_iff (by positivity)] at hvalue
  rw [hsize.signedUnits_eq]
  exact_mod_cast hvalue

end Binary64

namespace Duration

open Binary64

/-- The exact number of nanoseconds in a finite number of seconds. -/
def exactNanos (x : Binary64) : ℚ := x.signedUnits * nanosPerSecond / 2 ^ unitShift

/-- The length of time is the number of seconds rounded to the nearest nanosecond, a tie going to the even neighbour. -/
structure IsNearest (d : Duration) (x : Binary64) : Prop where
  error : |d.nanos - exactNanos x| ≤ 1 / 2
  even : |d.nanos - exactNanos x| = 1 / 2 → d.nanos % 2 = 0

variable {d e : Duration} {x : Binary64}

/-- Of two neighbours that are equally near, only one is even. -/
theorem IsNearest.unique (hd : d.IsNearest x) (he : e.IsNearest x) : d = e := by
  have hnot_lt {d e : Duration} (hd : d.IsNearest x) (he : e.IsNearest x) : ¬ d.nanos < e.nanos := by
    intro hlt
    have hstep : (d.nanos : ℚ) + 1 ≤ e.nanos := by exact_mod_cast hlt
    obtain ⟨hdlow, hdhigh⟩ := abs_le.mp hd.error
    obtain ⟨helow, hehigh⟩ := abs_le.mp he.error
    have hnext : (e.nanos : ℚ) = d.nanos + 1 := by linarith
    have hdeven : d.nanos % 2 = 0 := by
      refine hd.even ?_
      rw [abs_sub_comm, abs_of_nonneg (by linarith)]
      linarith
    have heeven : e.nanos % 2 = 0 := by
      refine he.even ?_
      rw [abs_of_nonneg (by linarith)]
      linarith
    have hnext : e.nanos = d.nanos + 1 := by exact_mod_cast hnext
    omega
  cases d
  cases e
  exact congrArg Duration.mk (Nat.le_antisymm (Nat.le_of_not_lt (hnot_lt he hd)) (Nat.le_of_not_lt (hnot_lt hd he)))

/-! ### Reading -/

/-- What the exact number of nanoseconds is rounded to is nearest to it. -/
theorem isNearest_rounded (h : 0 ≤ x.signedUnits) :
    IsNearest ⟨roundHalfEven (x.units * nanosPerSecond) (1 <<< unitShift)⟩ x := by
  have hunit : 0 < 1 <<< unitShift := by
    rw [Nat.shiftLeft_eq]
    positivity
  have hexact : exactNanos x = ((x.units * nanosPerSecond : Nat) : ℚ) / (1 <<< unitShift : Nat) := by
    rw [exactNanos, ← units_eq_of_nonneg h, Nat.shiftLeft_eq, Nat.one_mul]
    push_cast
    rfl
  refine ⟨?_, fun htie => ?_⟩
  · rw [hexact]
    exact roundHalfEven_error _ hunit
  · rw [hexact] at htie
    exact roundHalfEven_even hunit htie

/-- A number of seconds is read as the nearest length of time. -/
theorem isNearest_of_ofSeconds (h : ofSeconds x = .ok d) : x.isFinite = true ∧ d.IsNearest x := by
  unfold ofSeconds at h
  split at h
  · cases h
  · next hneg =>
    split at h
    · next hrange =>
      have hfinite := (Bool.and_eq_true_iff.mp hrange).1
      rw [numLt_iff_signedUnits hfinite zero_isFinite, signedUnits_zero, not_lt] at hneg
      cases h
      exact ⟨hfinite, isNearest_rounded hneg⟩
    · cases h

/-- A number of seconds that is nearest to a positive length of time of up to a day is read as that. -/
theorem ofSeconds_of_isNearest (hx : x.isFinite = true) (h : d.IsNearest x) (hpos : 0 < d.nanos)
    (hd : d.nanos ≤ 86_400 * nanosPerSecond) : 0 < x.signedUnits ∧ ofSeconds x = .ok d := by
  have hunit : (0 : ℚ) < 2 ^ unitShift := by positivity
  have hnano : (0 : ℚ) < nanosPerSecond := by norm_num [nanosPerSecond]
  obtain ⟨hlow, hhigh⟩ := abs_le.mp h.error
  have hone : (1 : ℚ) ≤ d.nanos := by exact_mod_cast hpos
  have hpositive : 0 < x.signedUnits := by
    have hexact : 0 < exactNanos x := by linarith
    rw [exactNanos, div_pos_iff_of_pos_right hunit, mul_pos_iff_of_pos_right hnano] at hexact
    exact_mod_cast hexact
  have hnonneg : x.numLt .zero = false := by
    rw [Bool.eq_false_iff, ne_eq, numLt_iff_signedUnits hx zero_isFinite, signedUnits_zero]
    exact not_lt.mpr hpositive.le
  have hbelow : x.numLt (.ofNat UInt64.size) = true := by
    obtain ⟨hfinite, hunits⟩ := signedUnits_ofNat_size
    rw [numLt_iff_signedUnits hx hfinite, hunits]
    have hday : (d.nanos : ℚ) ≤ 86_400 * nanosPerSecond := by exact_mod_cast hd
    have hsize : (86_400 : ℚ) * nanosPerSecond + 1 ≤ UInt64.size * nanosPerSecond := by
      norm_num [nanosPerSecond, UInt64.size]
    have hexact : exactNanos x < UInt64.size * nanosPerSecond := by linarith
    rw [exactNanos, div_lt_iff₀ hunit, mul_right_comm, mul_lt_mul_iff_left₀ hnano] at hexact
    exact_mod_cast hexact
  refine ⟨hpositive, ?_⟩
  rw [ofSeconds, hnonneg, hx, hbelow, (isNearest_rounded hpositive.le).unique h]
  rfl

end Duration

end Vetting
