import Vetting.Duration
import Vetting.Proofs.Binary64.Rounding

/-!
# Lengths of time written as doubles

A length of time of up to two days comes back from its double to the nanosecond, in seconds
(`Duration.ofSeconds_toSeconds`) as well as in milliseconds (`Duration.ofMilliseconds_toMillis`): all roundings together
are off by far less than half a nanosecond.
-/

namespace Vetting.Duration

open Binary64

/-- The longest time whose exchange is looked at here. -/
def twoDays : Duration := ofSecs (48 * 60 * 60)

/-- The exact number of seconds. -/
def seconds (d : Duration) : ℚ := d.nanos / nanosPerSecond

variable {d : Duration}

theorem seconds_eq (d : Duration) : d.seconds = d.secs + d.subsecNanos / nanosPerSecond := by
  have h : nanosPerSecond * d.secs + d.subsecNanos = d.nanos := Nat.div_add_mod _ _
  have hpos : (nanosPerSecond : ℚ) ≠ 0 := by norm_num [nanosPerSecond]
  rw [seconds, ← h]
  push_cast
  rw [add_div, mul_div_cancel_left₀ _ hpos]

theorem seconds_le_of_le_twoDays (h : d ≤ twoDays) : d.seconds ≤ 172800 := by
  have hle : d.nanos ≤ 172800 * nanosPerSecond := h
  rw [seconds, div_le_iff₀ (by norm_num [nanosPerSecond])]
  exact_mod_cast hle

/-- The thousand of a change between seconds and milliseconds, and the nanoseconds of a second, are exact. -/
theorem approximates_scale {n : Nat} (h : n < 2 ^ 53) : (Binary64.ofNat n).Approximates n 0 :=
  approximates_ofNat (e := 0) h (one_dvd n) (by decide)

theorem toSeconds_approximates (h : d ≤ twoDays) : d.toSeconds.Approximates d.seconds (1 / 2 ^ 35) := by
  have hbound := seconds_le_of_le_twoDays h
  have hsecs : d.secs < 2 ^ 53 := by
    have hle : d.secs ≤ twoDays.nanos / nanosPerSecond := Nat.div_le_div_right h
    exact Nat.lt_of_le_of_lt hle (by decide)
  have hsub : d.subsecNanos < nanosPerSecond := Nat.mod_lt _ (by decide)
  have hn : nanosPerSecond < 2 ^ 53 := by decide
  have hpos : (0 : ℚ) < nanosPerSecond := by norm_num [nanosPerSecond]
  have hfraction := (approximates_scale (hsub.trans hn)).div (p := 0) (approximates_scale hn) hpos
    (by rw [add_zero, pow_zero, div_lt_one hpos]; exact_mod_cast hsub) (by decide)
  have hsum := (approximates_scale hsecs).add (p := 18) hfraction
    (by rw [← seconds_eq]; norm_num; linarith) (by decide)
  rw [← seconds_eq] at hsum
  exact hsum.mono (by norm_num)

/-- The sum of the errors decides: below half a nanosecond, the length of time is found again. -/
theorem ofSeconds_eq {x : Binary64} {δ : ℚ} (h : x.Approximates d.seconds δ) (hδ : δ < 1 / (2 * nanosPerSecond))
    (hbound : d.seconds + δ < UInt64.size) : ofSeconds x = .ok d := by
  have hpos : (0 : ℚ) < nanosPerSecond := by norm_num [nanosPerSecond]
  have hzero : Binary64.zero.Approximates 0 0 := ⟨by decide, by decide, by norm_num [value, units, unitsOfBits,
    magnitudeBits, Binary64.zero, fractionCount]⟩
  have hsize : (Binary64.ofNat UInt64.size).Approximates UInt64.size 0 :=
    approximates_ofNat (e := 12) (by decide) (by decide) (by decide)
  have hnonneg : x.numLt .zero = false := by
    rw [Bool.eq_false_iff]
    intro hneg
    have hlt := (numLt_iff h hzero).mp hneg
    rw [hzero.value_eq] at hlt
    have : 0 ≤ x.value := by
      rw [value]
      positivity
    linarith
  have hlt : x.numLt (.ofNat UInt64.size) = true := by
    rw [numLt_iff h hsize, hsize.value_eq]
    exact h.value_le.trans_lt hbound
  have hround : roundHalfEven (x.units * nanosPerSecond) (1 <<< unitShift) = d.nanos := by
    apply roundHalfEven_eq (by rw [Nat.shiftLeft_eq]; positivity)
    have hscale : ((x.units * nanosPerSecond : Nat) : ℚ) / (1 <<< unitShift : Nat) - d.nanos =
        (x.value - d.seconds) * nanosPerSecond := by
      rw [value, seconds, Nat.shiftLeft_eq, Nat.one_mul, sub_mul, div_mul_cancel₀ _ hpos.ne']
      push_cast
      ring
    rw [hscale, abs_mul, abs_of_pos hpos]
    calc |x.value - d.seconds| * nanosPerSecond ≤ δ * nanosPerSecond := mul_le_mul_of_nonneg_right h.error hpos.le
      _ < 1 / (2 * nanosPerSecond) * nanosPerSecond := mul_lt_mul_of_pos_right hδ hpos
      _ = 1 / 2 := by field_simp
  rw [ofSeconds, hnonneg, h.finite, hlt, hround]
  rfl

theorem ofSeconds_toSeconds (h : d ≤ twoDays) : ofSeconds d.toSeconds = .ok d := by
  have hbound := seconds_le_of_le_twoDays h
  refine ofSeconds_eq (toSeconds_approximates h) (by norm_num [nanosPerSecond]) ?_
  norm_num [UInt64.size]
  linarith

theorem ofMilliseconds_toMillis (h : d ≤ twoDays) : ofMilliseconds d.toMillis = .ok d := by
  have hbound := seconds_le_of_le_twoDays h
  have hthousand : (Binary64.ofNat 1000).Approximates 1000 0 := approximates_scale (n := 1000) (by decide)
  have hmillis : d.toMillis.Approximates (d.seconds * 1000) (1 / 2 ^ 24) :=
    ((toSeconds_approximates h).mul (p := 28) hthousand (by norm_num) (by norm_num; linarith) (by decide)).mono
      (by norm_num)
  have hback := hmillis.div (p := 18) hthousand (by norm_num) (by norm_num; linarith) (by decide)
  rw [mul_div_cancel_right₀ _ (by norm_num)] at hback
  refine ofSeconds_eq hback (by norm_num [nanosPerSecond]) ?_
  norm_num [UInt64.size]
  linarith

end Vetting.Duration
