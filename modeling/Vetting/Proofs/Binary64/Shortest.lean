import Mathlib.Algebra.Order.Field.Power
import Vetting.Binary64.Decimal
import Vetting.Proofs.Binary64.Order
import Vetting.Proofs.Text.Numerals

/-!
# The shortest decimal reads back

Of the decimals with seventeen digits, the one next to a double is closer to it than half the way to its neighbours, so
it is rounded to the double (`Binary64.roundUnits_eq_of_close`). The search for the fewest digits therefore always ends
with a decimal that reads back (`Binary64.ofDecimal_shortest`), and doubles whose shortest decimals are the same number
have the same magnitude (`Binary64.abs_eq_of_value_eq`).
-/

namespace Vetting

/-! ### Rounding a quotient -/

theorem roundHalfEven_mul {c : Nat} (hc : 0 < c) (num den : Nat) :
    roundHalfEven (c * num) (c * den) = roundHalfEven num den := by
  have hbelow (a b : Nat) : 2 * (c * a) < c * b ↔ 2 * a < b := by
    rw [Nat.mul_left_comm]
    exact Nat.mul_lt_mul_left hc
  have habove (a b : Nat) : c * b < 2 * (c * a) ↔ b < 2 * a := by
    rw [Nat.mul_left_comm]
    exact Nat.mul_lt_mul_left hc
  simp only [roundHalfEven, Nat.mul_div_mul_left _ _ hc, Nat.mul_mod_mul_left, hbelow, habove]

namespace Binary64

variable {num den num' den' : Nat}

theorem roundUnits_mul {c : Nat} (hc : 0 < c) (num den : Nat) :
    roundUnits (c * num) (c * den) = roundUnits num den := by
  have hshift (k : Nat) : (c * den) <<< k = c * (den <<< k) := by
    rw [Nat.shiftLeft_eq, Nat.shiftLeft_eq, Nat.mul_assoc]
  simp only [roundUnits, Nat.mul_div_mul_left _ _ hc, hshift, roundHalfEven_mul hc]

/-- Rounding depends on the quotient alone. -/
theorem roundUnits_eq_of_div_eq (hden : 0 < den) (hden' : 0 < den') (h : (num : ℚ) / den = num' / den') :
    roundUnits num den = roundUnits num' den' := by
  have hcross : den' * num = den * num' := by
    rw [div_eq_div_iff (Nat.cast_ne_zero.mpr hden.ne') (Nat.cast_ne_zero.mpr hden'.ne')] at h
    rw [Nat.mul_comm, Nat.mul_comm den]
    exact_mod_cast h
  rw [← roundUnits_mul hden' num den, hcross, Nat.mul_comm den' den, roundUnits_mul hden]

/-- A quotient on the grid with steps of `2 ^ j` units is rounded to the whole number of steps next to it. -/
theorem roundUnits_eq_of_steps {j r : Nat} (hden : 0 < den) (hfits : (num : ℚ) / den < 2 ^ (53 + j))
    (hfills : j = 0 ∨ (2 : ℚ) ^ (52 + j) ≤ num / den) (h : |(num : ℚ) / den - r * 2 ^ j| < 2 ^ j / 2) :
    roundUnits num den = min infinityBits (j * fractionCount + r) := by
  have hd : (0 : ℚ) < den := Nat.cast_pos.mpr hden
  have hpow : (0 : ℚ) < 2 ^ j := by positivity
  have hstep : gridStep num den = j := by
    refine Nat.le_antisymm (gridStep_le hden ?_) ?_
    · rw [div_lt_iff₀ hd, mul_comm] at hfits
      exact_mod_cast hfits
    · obtain rfl | hfills := hfills
      · exact Nat.zero_le _
      · have hquot : 2 ^ (52 + j) ≤ num / den := by
          rw [le_div_iff₀ hd] at hfills
          exact (Nat.le_div_iff_mul_le hden).mpr (by exact_mod_cast hfills)
        have hlog := (Nat.le_log2 (Nat.lt_of_lt_of_le (Nat.two_pow_pos _) hquot).ne').mpr hquot
        rw [gridStep]
        omega
  have hround : roundHalfEven num (den <<< j) = r := by
    refine roundHalfEven_eq (by rw [Nat.shiftLeft_eq]; positivity) ?_
    have hscale : (num : ℚ) / (den <<< j : Nat) - r = (num / den - r * 2 ^ j) / 2 ^ j := by
      rw [Nat.shiftLeft_eq]
      push_cast
      field_simp
    rw [hscale, abs_div, abs_of_pos hpow, div_lt_iff₀ hpow]
    linarith
  change min infinityBits (gridStep num den * fractionCount + roundHalfEven num (den <<< gridStep num den)) = _
  rw [hstep, hround]

/-- A quotient that differs from a number by less than the part `2 ^ (-54)` of it is rounded to it. -/
theorem roundUnits_eq_of_close {m : Nat} (hden : 0 < den) (hm : m < infinityBits)
    (h : |(num : ℚ) / den - unitsOfBits m| < unitsOfBits m / 2 ^ 54) : roundUnits num den = m := by
  obtain ⟨k, r, rfl, hr, hk⟩ := exists_grid m
  rw [unitsOfBits_grid hr.le hk] at h
  push_cast at h
  have hpow : (0 : ℚ) < 2 ^ k := by positivity
  have hmost : (r : ℚ) ≤ 2 ^ 53 - 1 := by
    have hfraction : 2 * fractionCount = 2 ^ 53 := by decide
    have hle : r + 1 ≤ 2 ^ 53 := by omega
    have hle : ((r + 1 : Nat) : ℚ) ≤ (2 ^ 53 : Nat) := Nat.cast_le.mpr hle
    push_cast at hle
    linarith
  have hhalf : (r : ℚ) * 2 ^ k / 2 ^ 54 < 2 ^ k / 2 := by
    have := mul_le_mul_of_nonneg_right hmost hpow.le
    linarith
  obtain ⟨hlow, hhigh⟩ := abs_lt.mp h
  have hfits : (num : ℚ) / den < 2 ^ (53 + k) := by
    have := mul_le_mul_of_nonneg_right hmost hpow.le
    rw [pow_add]
    linarith
  by_cases hfills : k = 0 ∨ (2 : ℚ) ^ (52 + k) ≤ num / den
  · rw [roundUnits_eq_of_steps hden hfits hfills (h.trans hhalf), Nat.min_eq_right hm.le]
  · -- The number is the least one on its grid, and the quotient lies below it, where the steps are half as long.
    obtain ⟨hpos, hbelow⟩ := not_or.mp hfills
    have hleast : fractionCount ≤ r := hk.resolve_left hpos
    have hfraction : fractionCount = 2 ^ 52 := by decide
    obtain ⟨j, rfl⟩ : ∃ j, k = j + 1 := ⟨k - 1, by omega⟩
    rw [not_le, pow_add] at hbelow
    have hr : r = fractionCount := by
      refine Nat.le_antisymm (Nat.le_of_not_lt fun hlt => ?_) hleast
      have hle : ((2 ^ 52 + 1 : Nat) : ℚ) ≤ r := Nat.cast_le.mpr (by omega)
      push_cast at hle
      have := mul_le_mul_of_nonneg_right hle hpow.le
      linarith
    have hvalue : (r : ℚ) = 2 ^ 52 := by
      rw [hr, hfraction]
      push_cast
      rfl
    have hstep : (2 : ℚ) ^ (j + 1) = 2 * 2 ^ j := by ring
    have hpos : (0 : ℚ) < 2 ^ j := by positivity
    rw [hvalue, hstep] at hlow hhigh
    rw [hstep] at hbelow
    have hnear : |(num : ℚ) / den - (2 * fractionCount : Nat) * 2 ^ j| < 2 ^ j / 2 := by
      rw [hfraction]
      push_cast
      exact abs_lt.mpr ⟨by linarith, by linarith⟩
    have hbits : j * fractionCount + 2 * fractionCount = (j + 1) * fractionCount + r := by
      rw [hr, Nat.succ_mul j]
      omega
    rw [roundUnits_eq_of_steps hden (by rw [pow_add]; linarith) (.inr (by rw [pow_add]; linarith)) hnear, hbits,
      Nat.min_eq_right hm.le]

end Binary64

/-! ### Decimals -/

/-- The number that a decimal stands for. -/
def Decimal.value (d : Decimal) : ℚ := d.digits * 10 ^ d.exponent

theorem Decimal.value_stripZeros (fuel : Nat) (d : Decimal) : (stripZeros fuel d).value = d.value := by
  induction fuel generalizing d with
  | zero => rfl
  | succ fuel ih =>
    rw [stripZeros]
    split
    case isFalse => rfl
    case isTrue h =>
      have hdigits : (d.digits : ℚ) = (d.digits / 10 : Nat) * 10 := by
        exact_mod_cast (Nat.div_mul_cancel (Nat.dvd_of_mod_eq_zero h.2)).symm
      rw [ih, value, value, hdigits, zpow_add₀ (by norm_num), zpow_one, mul_assoc, mul_comm (10 : ℚ)]

/-- The leading digit of a number that is not zero. -/
theorem Text.pow_length_digits_le {n : Nat} (h : 0 < n) : 10 ^ ((Text.digits n).length - 1) ≤ n := by
  obtain hone | hmore := Nat.eq_zero_or_pos ((Text.digits n).length - 1)
  · rw [hone]
    exact h
  · refine Nat.le_of_not_lt fun hlt => ?_
    have := (Nat.length_toDigits_le_iff (by decide) hmore).mpr hlt
    change (Text.digits n).length ≤ _ at this
    omega

theorem Text.lt_pow_length_digits (n : Nat) : n < 10 ^ (Text.digits n).length :=
  (Nat.length_toDigits_le_iff (by decide) (Text.length_digits_pos n)).mp (Nat.le_refl _)

namespace Decimal

variable {num den : Nat}

/-- The leading digit of a quotient is not above it. -/
theorem pow_leadingExponent_le (hnum : 0 < num) (hden : 0 < den) :
    (10 : ℚ) ^ leadingExponent num den ≤ num / den := by
  have hd : (0 : ℚ) < den := Nat.cast_pos.mpr hden
  rw [le_div_iff₀ hd, leadingExponent]
  split
  case isTrue h =>
    have hquot : 0 < num / den := Nat.div_pos h hden
    have hpow := Text.pow_length_digits_le hquot
    have hlength := Text.length_digits_pos (num / den)
    have hexponent :
        ((Nat.toDigits 10 (num / den)).length : Int) - 1 = ((Text.digits (num / den)).length - 1 : Nat) := by
      change ((Text.digits (num / den)).length : Int) - 1 = _
      omega
    rw [hexponent, zpow_natCast]
    exact_mod_cast (Nat.le_div_iff_mul_le hden).mp hpow
  case isFalse h =>
    have hlt := Text.lt_pow_length_digits ((den + num - 1) / num - 1)
    change (10 : ℚ) ^ (-((Text.digits ((den + num - 1) / num - 1)).length : Int)) * den ≤ num
    generalize (Text.digits ((den + num - 1) / num - 1)).length = l at hlt
    have hceil : den ≤ num * ((den + num - 1) / num) := by
      have hdiv := Nat.div_add_mod (den + num - 1) num
      have hmod := Nat.mod_lt (den + num - 1) hnum
      omega
    have hle : den ≤ num * 10 ^ l := hceil.trans (Nat.mul_le_mul_left _ (by omega))
    rw [zpow_neg, zpow_natCast, inv_mul_le_iff₀ (by positivity), mul_comm]
    exact_mod_cast hle

/-- A quotient is cut off on a grid as a quotient of whole numbers. -/
theorem exists_onGrid (num : Nat) (hden : 0 < den) (exponent : Int) :
    ∃ n d : Nat, 0 < d ∧ onGrid num den exponent = (n / d, n % d, d) ∧ (n : ℚ) / d = num / den / 10 ^ exponent := by
  refine ⟨_, _, ?_, rfl, ?_⟩
  · split
    · exact Nat.mul_pos hden (Nat.pow_pos (by decide))
    · exact hden
  · split
    case isTrue h =>
      obtain ⟨n, rfl⟩ := Int.eq_ofNat_of_zero_le h
      rw [Int.toNat_natCast, zpow_natCast, div_div]
      change (num : ℚ) / (den * 10 ^ n : Nat) = _
      push_cast
      rfl
    case isFalse h =>
      obtain ⟨n, hn⟩ := Int.eq_ofNat_of_zero_le (show 0 ≤ -exponent by omega)
      obtain rfl : exponent = -(n : Int) := by omega
      rw [Int.neg_neg, Int.toNat_natCast, zpow_neg, zpow_natCast, div_inv_eq_mul]
      change ((num * 10 ^ n : Nat) : ℚ) / den = _
      push_cast
      ring

end Decimal

namespace Binary64

/-! ### Reading back -/

/-- A decimal is read as its number of units is rounded. -/
theorem exists_ofDecimal (negative : Bool) (digits : Nat) (exponent : Int) :
    ∃ num den, 0 < den ∧ ofDecimal negative digits exponent = ofSignMagnitude negative (roundUnits num den) ∧
      (num : ℚ) / den = digits * 10 ^ exponent * 2 ^ unitShift := by
  unfold ofDecimal ofRatio
  split
  case isTrue h =>
    obtain ⟨n, rfl⟩ := Int.eq_ofNat_of_zero_le h
    refine ⟨_, 1, one_pos, rfl, ?_⟩
    rw [Int.toNat_natCast, zpow_natCast, Nat.shiftLeft_eq]
    change ((digits * 10 ^ n * 2 ^ unitShift : Nat) : ℚ) / (1 : Nat) = _
    push_cast
    rw [div_one]
  case isFalse h =>
    obtain ⟨n, hn⟩ := Int.eq_ofNat_of_zero_le (show 0 ≤ -exponent by omega)
    obtain rfl : exponent = -(n : Int) := by omega
    refine ⟨_, _, Nat.pow_pos (by decide), rfl, ?_⟩
    rw [Int.neg_neg, Int.toNat_natCast, zpow_neg, zpow_natCast, Nat.shiftLeft_eq]
    change ((digits * 2 ^ unitShift : Nat) : ℚ) / (10 ^ n : Nat) = _
    push_cast
    ring

/-- Decimals that stand for the same number are read as the same double. -/
theorem ofDecimal_eq_of_value_eq (negative : Bool) {d d' : Decimal} (h : d.value = d'.value) :
    ofDecimal negative d.digits d.exponent = ofDecimal negative d'.digits d'.exponent := by
  obtain ⟨num, den, hden, hread, hratio⟩ := exists_ofDecimal negative d.digits d.exponent
  obtain ⟨num', den', hden', hread', hratio'⟩ := exists_ofDecimal negative d'.digits d'.exponent
  have hsame : (num : ℚ) / den = num' / den' := by
    rw [hratio, hratio']
    exact congrArg (· * _) h
  rw [hread, hread', roundUnits_eq_of_div_eq hden hden' hsame]

variable {x y : Binary64}

/-- A decimal is read as the double that it is very close to. -/
theorem ofDecimal_eq_abs (hx : x.isFinite = true) {digits : Nat} {exponent : Int}
    (h : |(digits : ℚ) * 10 ^ exponent * 2 ^ unitShift - x.units| < x.units / 2 ^ 54) :
    ofDecimal false digits exponent = x.abs := by
  obtain ⟨num, den, hden, hread, hratio⟩ := exists_ofDecimal false digits exponent
  rw [← hratio] at h
  rw [hread, roundUnits_eq_of_close hden (of_decide_eq_true hx) h, abs]

theorem units_pos (h : x.isZero = false) : 0 < x.units := by
  rw [units, ← unitsOfBits_zero]
  exact unitsOfBits_strictMono (Nat.pos_of_ne_zero (of_decide_eq_false h))

/-- On the grid of seventeen digits, one of the two neighbours of a double is read as it. -/
theorem exists_decimalWithDigits? (hx : x.isFinite = true) (hzero : x.isZero = false) :
    ∃ d, x.decimalWithDigits? (Decimal.leadingExponent x.units (1 <<< unitShift)) 17 = some d := by
  have hone : 0 < 1 <<< unitShift := by rw [Nat.shiftLeft_eq]; positivity
  have hunit : (0 : ℚ) < 2 ^ unitShift := by positivity
  have hunits : (0 : ℚ) < x.units := Nat.cast_pos.mpr (units_pos hzero)
  have hleading := Decimal.pow_leadingExponent_le (units_pos hzero) hone
  generalize Decimal.leadingExponent x.units (1 <<< unitShift) = leading at hleading
  obtain ⟨n, d, hd, hgrid, hratio⟩ := Decimal.exists_onGrid x.units hone (leading - (17 - 1 : Nat))
  rw [Nat.shiftLeft_eq, Nat.one_mul] at hleading hratio
  have hclose := roundHalfEven_error n hd
  obtain ⟨hlow, hhigh⟩ := roundHalfEven_bounds n d
  generalize roundHalfEven n d = near at hclose hlow hhigh
  have hread : ofDecimal false near (leading - (17 - 1 : Nat)) = x.abs := by
    refine ofDecimal_eq_abs hx ?_
    have hpow : (10 : ℚ) ^ (leading - (17 - 1 : Nat)) * 10 ^ 16 = 10 ^ leading := by
      rw [zpow_sub₀ (by norm_num)]
      norm_num
    have hstep : (0 : ℚ) < 10 ^ (leading - (17 - 1 : Nat)) := by positivity
    generalize (10 : ℚ) ^ (leading - (17 - 1 : Nat)) = step at hratio hpow hstep
    push_cast at hleading hratio
    have hscale : (near : ℚ) * step * 2 ^ unitShift - x.units = (near - n / d) * (step * 2 ^ unitShift) := by
      rw [hratio]
      field_simp
    have hsmall : step * 2 ^ unitShift * 10 ^ 16 ≤ x.units := by
      rw [le_div_iff₀ hunit, ← hpow] at hleading
      linarith
    rw [hscale, abs_mul, abs_of_pos (mul_pos hstep hunit)]
    have hhalf := mul_le_mul_of_nonneg_right hclose (mul_pos hstep hunit).le
    generalize step * 2 ^ unitShift = unit at *
    refine hhalf.trans_lt ?_
    linarith
  have hmem : near = n / d ∨ near = n / d + 1 := by omega
  rw [decimalWithDigits?, hgrid]
  refine Option.isSome_iff_exists.mp ?_
  rw [Option.isSome_map, List.find?_isSome]
  refine ⟨near, ?_, by rw [hread]; exact beq_self_eq_true _⟩
  split <;> simp only [List.mem_cons, List.not_mem_nil, or_false]
  · exact hmem
  · exact hmem.symm

/-- What is found with some number of digits reads back. -/
theorem ofDecimal_of_decimalWithDigits? {leading : Int} {count : Nat} {d : Decimal}
    (h : x.decimalWithDigits? leading count = some d) : ofDecimal false d.digits d.exponent = x.abs := by
  obtain ⟨digits, hfind, rfl⟩ := Option.map_eq_some_iff.mp h
  have hread := List.find?_some hfind
  exact eq_of_beq hread

/-- **The shortest decimal of a finite double is read as its magnitude.** -/
theorem ofDecimal_shortest (hx : x.isFinite = true) :
    ofDecimal false x.shortest.digits x.shortest.exponent = x.abs := by
  unfold shortest
  split
  case isTrue hzero =>
    rw [abs, of_decide_eq_true hzero]
    decide
  case isFalse hzero =>
    obtain ⟨d, hd⟩ := exists_decimalWithDigits? hx (Bool.eq_false_iff.mpr hzero)
    have hsome : ((List.range' 1 17).findSome?
        (x.decimalWithDigits? (Decimal.leadingExponent x.units (1 <<< unitShift)))).isSome = true :=
      List.findSome?_isSome_iff.mpr ⟨17, by decide, by rw [hd]; rfl⟩
    obtain ⟨found, hfound⟩ := Option.isSome_iff_exists.mp hsome
    obtain ⟨count, -, hcount⟩ := List.exists_of_findSome?_eq_some hfound
    simp only [hfound, Option.getD_some]
    rw [ofDecimal_eq_of_value_eq false (Decimal.value_stripZeros 20 found)]
    exact ofDecimal_of_decimalWithDigits? hcount

theorem abs_eq_of_value_eq (hx : x.isFinite = true) (hy : y.isFinite = true)
    (h : x.shortest.value = y.shortest.value) : x.abs = y.abs := by
  rw [← ofDecimal_shortest hx, ← ofDecimal_shortest hy, ofDecimal_eq_of_value_eq false h]

end Binary64

end Vetting
