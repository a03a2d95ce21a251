import Mathlib.Algebra.Order.Field.Basic
import Mathlib.Data.Rat.Cast.Order
import Mathlib.Tactic.FieldSimp
import Mathlib.Tactic.Linarith
import Mathlib.Tactic.NormNum
import Mathlib.Tactic.Positivity
import Mathlib.Tactic.Ring
import Vetting.Binary64

/-!
# How far rounding can be off

Magnitude bits `k * 2 ^ 52 + r` stand for `r * 2 ^ k` units (`Binary64.unitsOfBits_grid`), so rounding to magnitude bits
is rounding to a whole number of grid steps, off by at most half a step (`Binary64.roundUnits_error`).

`Binary64.Approximates` carries a bound on the error through a computation, one rule for each operation: the errors of
the operands, plus half a step of the grid on which the result lies.
-/

namespace Vetting

/-! ### Whole numbers -/

theorem roundHalfEven_bounds (num den : Nat) :
    num / den ≤ roundHalfEven num den ∧ roundHalfEven num den ≤ num / den + 1 := by
  unfold roundHalfEven
  simp only
  split
  · omega
  · split <;> omega

theorem roundHalfEven_of_dvd {num den : Nat} (hden : 0 < den) (h : den ∣ num) :
    roundHalfEven num den = num / den := by
  have hrest : 2 * (num % den) < den := by
    rw [Nat.mod_eq_zero_of_dvd h]
    exact hden
  exact if_pos hrest

theorem roundHalfEven_error (num : Nat) {den : Nat} (hden : 0 < den) :
    |(roundHalfEven num den : ℚ) - num / den| ≤ 1 / 2 := by
  have hd : (0 : ℚ) < den := Nat.cast_pos.mpr hden
  have hdiv : (den : ℚ) * (num / den : Nat) + (num % den : Nat) = num := by
    exact_mod_cast Nat.div_add_mod num den
  have hquot : (num : ℚ) / den = (num / den : Nat) + (num % den : Nat) / den := by
    rw [← hdiv]
    field_simp
  have hrest : ((num % den : Nat) : ℚ) / den ≤ 1 / 2 ↔ 2 * (num % den) ≤ den := by
    rw [div_le_div_iff₀ hd two_pos, one_mul, mul_comm]
    exact_mod_cast Iff.rfl
  have hrest' : (1 : ℚ) / 2 ≤ ((num % den : Nat) : ℚ) / den ↔ den ≤ 2 * (num % den) := by
    rw [div_le_div_iff₀ two_pos hd, one_mul, mul_comm ((num % den : Nat) : ℚ)]
    exact_mod_cast Iff.rfl
  have hpos : (0 : ℚ) ≤ ((num % den : Nat) : ℚ) / den := by positivity
  have hlt : ((num % den : Nat) : ℚ) / den < 1 := by
    rw [div_lt_one hd]
    exact_mod_cast Nat.mod_lt num hden
  rw [hquot, abs_le]
  unfold roundHalfEven
  simp only
  split
  · rename_i h
    have := hrest.mpr h.le
    constructor <;> linarith
  · split
    · rename_i h
      have := hrest'.mpr h.le
      push_cast
      constructor <;> linarith
    · -- A tie: either neighbour is half a step away.
      have := hrest.mpr (by omega)
      have := hrest'.mpr (by omega)
      obtain h | h := Nat.mod_two_eq_zero_or_one (num / den) <;> rw [h] <;> push_cast <;> constructor <;> linarith

/-- What is closer than half a step to a whole number is rounded to it. -/
theorem roundHalfEven_eq {num den n : Nat} (hden : 0 < den) (h : |(num : ℚ) / den - n| < 1 / 2) :
    roundHalfEven num den = n := by
  have herror := roundHalfEven_error num hden
  rw [abs_le] at herror
  rw [abs_lt] at h
  have hlow : (roundHalfEven num den : ℚ) < n + 1 := by linarith
  have hhigh : (n : ℚ) < roundHalfEven num den + 1 := by linarith
  norm_cast at hlow hhigh
  omega

namespace Binary64

/-! ### The grid of magnitudes -/

theorem fractionCount_pos : 0 < fractionCount := by decide

theorem unitsOfBits_grid {k r : Nat} (hr : r ≤ 2 * fractionCount) (hk : k = 0 ∨ fractionCount ≤ r) :
    unitsOfBits (k * fractionCount + r) = r * 2 ^ k := by
  have hbiased : (k * fractionCount + r) / fractionCount = r / fractionCount + k := by
    rw [Nat.add_comm, Nat.add_mul_div_right _ _ fractionCount_pos]
  have hfraction : (k * fractionCount + r) % fractionCount = r % fractionCount := by
    rw [Nat.add_comm, Nat.add_mul_mod_self_right]
  rw [unitsOfBits, hbiased, hfraction]
  obtain hlt | hge := Nat.lt_or_ge r fractionCount
  · obtain rfl := hk.resolve_right (Nat.not_le.mpr hlt)
    simp only [Nat.div_eq_of_lt hlt, Nat.mod_eq_of_lt hlt, if_true, Nat.pow_zero, Nat.mul_one]
  · obtain hlt | rfl := Nat.lt_or_eq_of_le hr
    · have hquot : r / fractionCount = 1 := Nat.div_eq_of_lt_le (by omega) (by omega)
      have hrest : r % fractionCount = r - fractionCount := by
        rw [Nat.mod_eq_sub_mod hge, Nat.mod_eq_of_lt (by omega)]
      rw [hquot, hrest, if_neg (by omega), Nat.shiftLeft_eq, Nat.add_sub_cancel_left,
        Nat.add_sub_cancel' hge]
    · rw [Nat.mul_div_cancel _ fractionCount_pos, Nat.mul_mod_left, if_neg (by omega), Nat.shiftLeft_eq,
        Nat.add_zero, Nat.add_comm 2 k, Nat.add_sub_assoc (by decide), Nat.pow_succ]
      ring

/-- Every magnitude is a whole number of grid steps. -/
theorem exists_grid (m : Nat) :
    ∃ k r, m = k * fractionCount + r ∧ r < 2 * fractionCount ∧ (k = 0 ∨ fractionCount ≤ r) := by
  have hm := Nat.div_add_mod m fractionCount
  have hlt := Nat.mod_lt m fractionCount_pos
  cases hb : m / fractionCount with
  | zero => exact ⟨0, m, by omega, by rw [hb] at hm; omega, .inl rfl⟩
  | succ k =>
    refine ⟨k, fractionCount + m % fractionCount, ?_, by omega, .inr (by omega)⟩
    rw [hb, Nat.mul_succ, Nat.mul_comm] at hm
    omega

theorem unitsOfBits_strictMono : StrictMono unitsOfBits := by
  apply strictMono_nat_of_lt_succ
  intro m
  obtain ⟨k, r, rfl, hr, hk⟩ := exists_grid m
  rw [Nat.add_assoc, unitsOfBits_grid hr.le hk,
    unitsOfBits_grid (k := k) (r := r + 1) (by omega) (hk.imp_right Nat.le_succ_of_le)]
  exact Nat.mul_lt_mul_of_pos_right r.lt_succ_self (Nat.two_pow_pos k)

/-! ### Rounding to the grid -/

/-- The step of the grid on which a quotient is rounded, as a power of two. -/
def gridStep (num den : Nat) : Nat := Nat.log2 (num / den) - 52

variable {num den : Nat}

/-- The grid is the finest on which a quotient has at most 53 digits. -/
theorem steps_bounds (num den : Nat) :
    roundHalfEven num (den <<< gridStep num den) ≤ 2 * fractionCount ∧
      (gridStep num den = 0 ∨ fractionCount ≤ roundHalfEven num (den <<< gridStep num den)) := by
  have hpow : 0 < 2 ^ gridStep num den := Nat.two_pow_pos _
  have hquot : num / (den <<< gridStep num den) = num / den / 2 ^ gridStep num den := by
    rw [Nat.shiftLeft_eq, Nat.div_div_eq_div_mul]
  obtain ⟨hlow, hhigh⟩ := roundHalfEven_bounds num (den <<< gridStep num den)
  rw [hquot] at hlow hhigh
  have hfine : num / den < 2 ^ (53 + gridStep num den) := by
    refine Nat.lt_of_lt_of_le Nat.lt_log2_self (Nat.pow_le_pow_right two_pos ?_)
    unfold gridStep
    omega
  constructor
  · have hlt : num / den / 2 ^ gridStep num den < 2 ^ 53 := by
      rw [Nat.div_lt_iff_lt_mul hpow, ← Nat.pow_add]
      exact hfine
    have : 2 * fractionCount = 2 ^ 53 := by decide
    omega
  · obtain hzero | hpos := Nat.eq_zero_or_pos (gridStep num den)
    · exact .inl hzero
    · right
      refine Nat.le_trans ?_ hlow
      rw [Nat.le_div_iff_mul_le hpow]
      have hne : num / den ≠ 0 := by
        rintro h
        rw [gridStep, h] at hpos
        exact absurd hpos (by decide)
      have hlog : Nat.log2 (num / den) = 52 + gridStep num den := by
        unfold gridStep at hpos ⊢
        omega
      have hself := Nat.log2_self_le hne
      rw [hlog, Nat.pow_add] at hself
      exact hself

/-- The grid of a quotient below `2 ^ (53 + j)` has steps of at most `2 ^ j`. -/
theorem gridStep_le {j : Nat} (hden : 0 < den) (h : num < den * 2 ^ (53 + j)) : gridStep num den ≤ j := by
  have hlt : num / den < 2 ^ (53 + j) := by
    rw [Nat.div_lt_iff_lt_mul hden, Nat.mul_comm]
    exact h
  by_cases hne : num / den = 0
  · rw [gridStep, hne]
    exact Nat.zero_le j
  · have := (Nat.log2_lt hne).mpr hlt
    unfold gridStep
    omega

/-- Below the largest finite number, the magnitude that a quotient is rounded to is a whole number of steps. -/
theorem roundUnits_grid {j : Nat} (hden : 0 < den) (h : num < den * 2 ^ (53 + j)) (hj : j < 2045) :
    roundUnits num den < infinityBits ∧
      unitsOfBits (roundUnits num den) =
        roundHalfEven num (den <<< gridStep num den) * 2 ^ gridStep num den := by
  obtain ⟨hr, hk⟩ := steps_bounds num den
  have hle := gridStep_le hden h
  have hinf : infinityBits = 2047 * fractionCount := rfl
  have hfinite : gridStep num den * fractionCount + roundHalfEven num (den <<< gridStep num den) < infinityBits := by
    have := Nat.mul_le_mul_right fractionCount hle
    have := Nat.mul_le_mul_right fractionCount (Nat.le_of_lt_succ hj)
    have := fractionCount_pos
    omega
  have hbits : roundUnits num den =
      gridStep num den * fractionCount + roundHalfEven num (den <<< gridStep num den) :=
    Nat.min_eq_right hfinite.le
  rw [hbits]
  exact ⟨hfinite, unitsOfBits_grid hr hk⟩

/-- A quotient below `2 ^ (53 + j)` units is rounded by at most half of `2 ^ j` units. -/
theorem roundUnits_error {j : Nat} (hden : 0 < den) (h : num < den * 2 ^ (53 + j)) (hj : j < 2045) :
    |(unitsOfBits (roundUnits num den) : ℚ) - num / den| ≤ 2 ^ j / 2 := by
  have hsteps : 0 < den <<< gridStep num den := by
    rw [Nat.shiftLeft_eq]
    exact Nat.mul_pos hden (Nat.two_pow_pos _)
  have herror := roundHalfEven_error num hsteps
  have hpow : (0 : ℚ) < 2 ^ gridStep num den := by positivity
  have hd : (den : ℚ) ≠ 0 := Nat.cast_ne_zero.mpr hden.ne'
  have hscale : (num : ℚ) / den = num / (den <<< gridStep num den : Nat) * 2 ^ gridStep num den := by
    rw [Nat.shiftLeft_eq]
    push_cast
    field_simp
  rw [(roundUnits_grid hden h hj).2, hscale]
  push_cast
  rw [← sub_mul, abs_mul, abs_of_pos hpow]
  calc |(roundHalfEven num (den <<< gridStep num den) : ℚ) - num / (den <<< gridStep num den : Nat)|
        * 2 ^ gridStep num den
      ≤ 1 / 2 * 2 ^ gridStep num den := mul_le_mul_of_nonneg_right herror hpow.le
    _ ≤ 1 / 2 * 2 ^ j := by
      have : (2 : ℚ) ^ gridStep num den ≤ 2 ^ j := pow_le_pow_right₀ one_le_two (gridStep_le hden h)
      linarith
    _ = 2 ^ j / 2 := by ring

/-! ### Errors of computations -/

/-- The exact value of the magnitude of a finite number. -/
def value (x : Binary64) : ℚ := x.units / 2 ^ unitShift

/-- A number without sign that lies within `δ` of `v`. -/
structure Approximates (x : Binary64) (v δ : ℚ) : Prop where
  nonneg : x.isNegative = false
  finite : x.isFinite = true
  error : |x.value - v| ≤ δ

theorem isNegative_ofSignMagnitude (negative : Bool) {m : Nat} (h : m ≤ infinityBits) :
    (ofSignMagnitude negative m).isNegative = negative ∧ (ofSignMagnitude negative m).magnitudeBits = m := by
  have hsign : infinityBits < signBit := by decide
  have hsize : UInt64.size = signBit + signBit := by decide
  rw [isNegative, magnitudeBits]
  cases negative with
  | false =>
    have hsize : m < UInt64.size := by omega
    have hbits : (ofSignMagnitude false m).bits.toNat = m := UInt64.toNat_ofNat_of_lt' hsize
    rw [hbits]
    exact ⟨decide_eq_false (by omega), Nat.mod_eq_of_lt (by omega)⟩
  | true =>
    have hsize : signBit + m < UInt64.size := by omega
    have hbits : (ofSignMagnitude true m).bits.toNat = signBit + m := UInt64.toNat_ofNat_of_lt' hsize
    rw [hbits]
    exact ⟨decide_eq_true (by omega), by rw [Nat.add_mod_left, Nat.mod_eq_of_lt (by omega)]⟩

theorem Approximates.isNaN_eq_false {x : Binary64} {v δ : ℚ} (h : x.Approximates v δ) : x.isNaN = false :=
  isNaN_eq_false_of_isFinite h.finite

theorem Approximates.isInfinite_eq_false {x : Binary64} {v δ : ℚ} (h : x.Approximates v δ) :
    x.isInfinite = false := by
  have := of_decide_eq_true h.finite
  exact decide_eq_false (by omega)

theorem Approximates.signedUnits_eq {x : Binary64} {v δ : ℚ} (h : x.Approximates v δ) : x.signedUnits = x.units := by
  rw [signedUnits, h.nonneg]
  rfl

theorem Approximates.value_le {x : Binary64} {v δ : ℚ} (h : x.Approximates v δ) : x.value ≤ v + δ := by
  have := (abs_le.mp h.error).2
  linarith

theorem Approximates.value_eq {x : Binary64} {v : ℚ} (h : x.Approximates v 0) : x.value = v :=
  sub_eq_zero.mp (abs_nonpos_iff.mp h.error)

/-- What is known of the value of a number, seen from another one nearby. -/
theorem Approximates.mono {x : Binary64} {v w δ ε : ℚ} (h : x.Approximates v δ) (hw : |v - w| + δ ≤ ε) :
    x.Approximates w ε := by
  refine ⟨h.nonneg, h.finite, ?_⟩
  have := abs_sub_le x.value v w
  have := h.error
  linarith

/-- The result of an operation on numbers below `2 ^ p` lies within `2 ^ (p - 54)` of the exact result. -/
theorem approximates_round {p : Nat} (num : Nat) (hden : 0 < den) (h : (num : ℚ) / den / 2 ^ unitShift < 2 ^ p)
    (hp : p < 1024) :
    (ofSignMagnitude false (roundUnits num den)).Approximates (num / den / 2 ^ unitShift) (2 ^ p / 2 ^ 54) := by
  have hunit : (0 : ℚ) < 2 ^ unitShift := by positivity
  have hpow : (53 + (p + 1021)) = p + unitShift := by
    rw [unitShift]
    omega
  have hlt : num < den * 2 ^ (53 + (p + 1021)) := by
    rw [div_lt_iff₀ hunit, div_lt_iff₀ (Nat.cast_pos.mpr hden), ← pow_add] at h
    rw [hpow, Nat.mul_comm]
    exact_mod_cast h
  have hfinite := (roundUnits_grid hden hlt (by omega)).1
  obtain ⟨hsign, hbits⟩ := isNegative_ofSignMagnitude false hfinite.le
  refine ⟨hsign, ?_, ?_⟩
  · rw [isFinite, hbits]
    exact decide_eq_true hfinite
  · rw [value, units, hbits, ← sub_div, abs_div, abs_of_pos hunit, div_le_iff₀ hunit]
    refine (roundUnits_error hden hlt (by omega)).trans (le_of_eq ?_)
    have hsplit : (2 : ℚ) ^ unitShift = 2 ^ 1021 * 2 ^ 53 := by rw [← pow_add, unitShift]
    rw [hsplit, pow_add]
    generalize (2 : ℚ) ^ 1021 = step
    ring

/-- Whole numbers of at most 53 binary digits, and their multiples by powers of two, are exact. -/
theorem approximates_ofNat {n e : Nat} (h : n < 2 ^ (53 + e)) (hdvd : 2 ^ e ∣ n) (he : e < 971) :
    (ofNat n).Approximates n 0 := by
  have hnum : n <<< unitShift < 1 * 2 ^ (53 + (e + unitShift)) := by
    rw [Nat.one_mul, Nat.shiftLeft_eq, ← Nat.add_assoc, Nat.pow_add _ _ unitShift]
    exact Nat.mul_lt_mul_of_pos_right h (Nat.two_pow_pos _)
  obtain ⟨hfinite, hunits⟩ := roundUnits_grid one_pos hnum (by rw [unitShift]; omega)
  have hle := gridStep_le one_pos hnum
  rw [Nat.shiftLeft_eq n] at hunits hle hfinite
  have hsteps : 1 <<< gridStep (n * 2 ^ unitShift) 1 ∣ n * 2 ^ unitShift := by
    rw [Nat.shiftLeft_eq, Nat.one_mul]
    refine (Nat.pow_dvd_pow 2 hle).trans ?_
    rw [Nat.pow_add]
    exact Nat.mul_dvd_mul_right hdvd _
  obtain ⟨hsign, hbits⟩ := isNegative_ofSignMagnitude false hfinite.le
  refine ⟨by rw [ofNat, ofRatio, Nat.shiftLeft_eq]; exact hsign, ?_, ?_⟩
  · rw [isFinite, ofNat, ofRatio, Nat.shiftLeft_eq, hbits]
    exact decide_eq_true hfinite
  · have hexact : (ofNat n).units = n * 2 ^ unitShift := by
      rw [units, ofNat, ofRatio, Nat.shiftLeft_eq, hbits, hunits,
        roundHalfEven_of_dvd (by rw [Nat.shiftLeft_eq]; positivity) hsteps]
      rw [Nat.shiftLeft_eq, Nat.one_mul] at hsteps ⊢
      exact Nat.div_mul_cancel hsteps
    rw [value, hexact]
    push_cast
    rw [mul_div_cancel_right₀ _ (by positivity), sub_self, abs_zero]

section

variable {x y : Binary64} {v w δ ε : ℚ} {p : Nat}

theorem Approximates.add (hx : x.Approximates v δ) (hy : y.Approximates w ε) (h : v + w + δ + ε < 2 ^ p)
    (hp : p < 1024) : (x + y).Approximates (v + w) (δ + ε + 2 ^ p / 2 ^ 54) := by
  have hsum : x + y = ofSignMagnitude false (roundUnits (x.units + y.units) 1) := by
    change Binary64.add x y = _
    rw [Binary64.add, hx.isNaN_eq_false, hy.isNaN_eq_false, hx.isInfinite_eq_false, hy.isInfinite_eq_false,
      hx.nonneg, hy.nonneg, hx.signedUnits_eq, hy.signedUnits_eq, ← Nat.cast_add]
    simp only [Bool.or_self, Bool.false_eq_true, if_false, Bool.and_self, ofSignedUnits, Int.natAbs_natCast]
    split
    · rename_i hzero
      rw [Int.natCast_eq_zero.mp hzero]
      rfl
    · rw [decide_eq_false (by omega)]
  have hvalue : ((x.units + y.units : Nat) : ℚ) / (1 : Nat) / 2 ^ unitShift = x.value + y.value := by
    rw [value, value, Nat.cast_one, div_one, Nat.cast_add, add_div]
  have hround := approximates_round (x.units + y.units) one_pos
    (by rw [hvalue]; linarith [hx.value_le, hy.value_le]) hp
  rw [hsum]
  refine hround.mono ?_
  rw [hvalue, add_sub_add_comm]
  have := abs_add_le (x.value - v) (y.value - w)
  linarith [hx.error, hy.error]

theorem Approximates.mul (hx : x.Approximates v δ) (hy : y.Approximates w 0) (hw : 0 ≤ w)
    (h : (v + δ) * w < 2 ^ p) (hp : p < 1024) : (x * y).Approximates (v * w) (δ * w + 2 ^ p / 2 ^ 54) := by
  have hproduct : x * y = ofSignMagnitude false (roundUnits (x.units * y.units) (1 <<< unitShift)) := by
    change Binary64.mul x y = _
    rw [Binary64.mul, hx.isNaN_eq_false, hy.isNaN_eq_false, hx.isInfinite_eq_false, hy.isInfinite_eq_false,
      hx.nonneg, hy.nonneg]
    rfl
  have hunit : 0 < 1 <<< unitShift := by
    rw [Nat.shiftLeft_eq]
    positivity
  have hvalue : ((x.units * y.units : Nat) : ℚ) / (1 <<< unitShift : Nat) / 2 ^ unitShift = x.value * y.value := by
    rw [value, value, Nat.shiftLeft_eq, Nat.one_mul, Nat.cast_mul, Nat.cast_pow, Nat.cast_ofNat, div_div,
      div_mul_div_comm]
  have hround := approximates_round (x.units * y.units) hunit
    (by rw [hvalue, hy.value_eq]; exact (mul_le_mul_of_nonneg_right hx.value_le hw).trans_lt h) hp
  rw [hproduct]
  refine hround.mono ?_
  rw [hvalue, hy.value_eq, ← sub_mul, abs_mul, abs_of_nonneg hw]
  linarith [mul_le_mul_of_nonneg_right hx.error hw]

theorem Approximates.div (hx : x.Approximates v δ) (hy : y.Approximates w 0) (hw : 0 < w)
    (h : (v + δ) / w < 2 ^ p) (hp : p < 1024) : (x / y).Approximates (v / w) (δ / w + 2 ^ p / 2 ^ 54) := by
  have hunit : (0 : ℚ) < 2 ^ unitShift := by positivity
  have hunits : 0 < y.units := by
    apply Nat.pos_of_ne_zero
    intro hzero
    have := hy.value_eq
    rw [value, hzero, Nat.cast_zero, zero_div] at this
    linarith
  have hnonzero : y.isZero = false := by
    apply decide_eq_false
    intro hzero
    rw [units, hzero] at hunits
    exact absurd hunits (by decide)
  have hquotient : x / y = ofSignMagnitude false (roundUnits (x.units <<< unitShift) y.units) := by
    change Binary64.div x y = _
    rw [Binary64.div, hx.isNaN_eq_false, hy.isNaN_eq_false, hx.isInfinite_eq_false, hy.isInfinite_eq_false,
      hx.nonneg, hy.nonneg, hnonzero]
    rfl
  have hvalue : ((x.units <<< unitShift : Nat) : ℚ) / y.units / 2 ^ unitShift = x.value / y.value := by
    have : (y.units : ℚ) ≠ 0 := Nat.cast_ne_zero.mpr hunits.ne'
    rw [value, value, Nat.shiftLeft_eq, Nat.cast_mul, Nat.cast_pow, Nat.cast_ofNat]
    field_simp
  have hround := approximates_round (x.units <<< unitShift) hunits
    (by rw [hvalue, hy.value_eq]; exact ((div_le_div_iff_of_pos_right hw).mpr hx.value_le).trans_lt h) hp
  rw [hquotient]
  refine hround.mono ?_
  rw [hvalue, hy.value_eq, ← sub_div, abs_div, abs_of_pos hw]
  linarith [(div_le_div_iff_of_pos_right hw).mpr hx.error]

/-- On numbers without sign, the order is that of their values. -/
theorem numLt_iff (hx : x.Approximates v δ) (hy : y.Approximates w ε) : x.numLt y = true ↔ x.value < y.value := by
  have hunit : (0 : ℚ) < 2 ^ unitShift := by positivity
  rw [value, value, div_lt_div_iff_of_pos_right hunit, Nat.cast_lt, units, units, unitsOfBits_strictMono.lt_iff_lt,
    numLt, rank, rank, hx.isNaN_eq_false, hy.isNaN_eq_false, hx.nonneg, hy.nonneg]
  simp only [Bool.not_false, Bool.true_and, Bool.false_eq_true, if_false, decide_eq_true_eq, Nat.cast_lt]

end

end Binary64

end Vetting
