import Vetting.Proofs.Binary64.Rounding

/-!
# Rounding keeps the order

A larger quotient is never rounded to a smaller magnitude (`Binary64.roundUnits_mono`), and what is a number already is
not changed by rounding (`Binary64.roundUnits_unitsOfBits`). So sums of finite numbers keep the order of their terms
(`Binary64.rank_add_le_rank_add`), and products of numbers that are not below zero that of their factors.

Places on the line of numbers are given by `Binary64.rank`, where both zeros meet.
-/

namespace Vetting

theorem roundHalfEven_mono {num num' : Nat} (den : Nat) (h : num ≤ num') :
    roundHalfEven num den ≤ roundHalfEven num' den := by
  have hquot : num / den ≤ num' / den := Nat.div_le_div_right h
  obtain hlt | heq := Nat.lt_or_eq_of_le hquot
  · have := (roundHalfEven_bounds num den).2
    have := (roundHalfEven_bounds num' den).1
    omega
  · have hdiv := Nat.div_add_mod num den
    have hdiv' := Nat.div_add_mod num' den
    rw [heq] at hdiv
    have hrest : num % den ≤ num' % den := by omega
    unfold roundHalfEven
    simp only [heq]
    split_ifs <;> omega

namespace Binary64

/-! ### Magnitudes -/

theorem gridStep_mono {num num' : Nat} (den : Nat) (h : num ≤ num') : gridStep num den ≤ gridStep num' den := by
  have hquot : num / den ≤ num' / den := Nat.div_le_div_right h
  by_cases hzero : num / den = 0
  · rw [gridStep, hzero]
    exact Nat.zero_le _
  · have hzero' : num' / den ≠ 0 := (Nat.lt_of_lt_of_le (Nat.pos_of_ne_zero hzero) hquot).ne'
    have hlog : Nat.log2 (num / den) ≤ Nat.log2 (num' / den) :=
      (Nat.le_log2 hzero').mpr ((Nat.log2_self_le hzero).trans hquot)
    exact Nat.sub_le_sub_right hlog 52

/-- A larger quotient is not rounded to a smaller magnitude. -/
theorem roundUnits_mono {num num' : Nat} (den : Nat) (h : num ≤ num') : roundUnits num den ≤ roundUnits num' den := by
  refine Nat.le_min.mpr ⟨Nat.min_le_left _ _, (Nat.min_le_right _ _).trans ?_⟩
  change gridStep num den * fractionCount + roundHalfEven num (den <<< gridStep num den)
    ≤ gridStep num' den * fractionCount + roundHalfEven num' (den <<< gridStep num' den)
  obtain hlt | heq := Nat.lt_or_eq_of_le (gridStep_mono den h)
  · -- On a coarser grid the number of steps is at least that of a finer grid's end.
    obtain ⟨hfine, -⟩ := steps_bounds num den
    obtain ⟨-, hzero | hcoarse⟩ := steps_bounds num' den
    · omega
    · have := Nat.mul_le_mul_right fractionCount (Nat.succ_le_of_lt hlt)
      rw [Nat.succ_mul] at this
      omega
  · rw [heq]
    exact Nat.add_le_add_left (roundHalfEven_mono _ h) _

theorem roundUnits_zero (den : Nat) : roundUnits 0 den = 0 := by
  simp [roundUnits, roundHalfEven, Nat.log2]

/-- Magnitudes of numbers are not changed by rounding. -/
theorem roundUnits_unitsOfBits {m : Nat} (h : m < infinityBits) : roundUnits (unitsOfBits m) 1 = m := by
  obtain ⟨k, r, rfl, hr, hk⟩ := exists_grid m
  rw [unitsOfBits_grid hr.le hk]
  have hpow : 2 * fractionCount = 2 ^ 53 := by decide
  have hle : gridStep (r * 2 ^ k) 1 ≤ k := by
    refine gridStep_le one_pos ?_
    rw [Nat.one_mul, Nat.pow_add, ← hpow]
    exact Nat.mul_lt_mul_of_pos_right hr (Nat.two_pow_pos k)
  have hge : k ≤ gridStep (r * 2 ^ k) 1 := by
    obtain rfl | hfull := hk
    · exact Nat.zero_le _
    · have hfraction : fractionCount = 2 ^ 52 := by decide
      have hlow : 2 ^ (52 + k) ≤ r * 2 ^ k := by
        rw [Nat.pow_add, ← hfraction]
        exact Nat.mul_le_mul_right _ hfull
      have hne : r * 2 ^ k ≠ 0 := by
        have := Nat.two_pow_pos (52 + k)
        omega
      have := (Nat.le_log2 hne).mpr hlow
      rw [gridStep, Nat.div_one]
      omega
  have hstep : gridStep (r * 2 ^ k) 1 = k := Nat.le_antisymm hle hge
  have hexact : roundHalfEven (r * 2 ^ k) (1 <<< k) = r := by
    rw [Nat.shiftLeft_eq, Nat.one_mul, roundHalfEven_of_dvd (Nat.two_pow_pos k) (Nat.dvd_mul_left _ _),
      Nat.mul_div_cancel _ (Nat.two_pow_pos k)]
  change min infinityBits (gridStep (r * 2 ^ k) 1 * fractionCount
    + roundHalfEven (r * 2 ^ k) (1 <<< gridStep (r * 2 ^ k) 1)) = _
  rw [hstep, hexact]
  exact Nat.min_eq_right h.le

theorem roundUnits_le (num den : Nat) : roundUnits num den ≤ infinityBits := Nat.min_le_left _ _

theorem unitsOfBits_zero : unitsOfBits 0 = 0 := by decide

/-! ### Places of numbers -/

theorem natAbs_rank (x : Binary64) : x.rank.natAbs = x.magnitudeBits := by
  unfold rank
  split <;> omega

theorem isFinite_iff {x : Binary64} : x.isFinite = true ↔ x.rank.natAbs < infinityBits := by
  rw [natAbs_rank, isFinite, decide_eq_true_eq]

/-- What lies between two finite numbers is finite. -/
theorem isFinite_of_between {x low high : Binary64} (hlow : low.isFinite = true) (hhigh : high.isFinite = true)
    (hle : low.rank ≤ x.rank) (hge : x.rank ≤ high.rank) : x.isFinite = true := by
  rw [isFinite_iff] at *
  omega

theorem numLe_iff {x y : Binary64} (hx : x.isFinite = true) (hy : y.isFinite = true) :
    x.numLe y = true ↔ x.rank ≤ y.rank := by
  simp [numLe, isNaN_eq_false_of_isFinite hx, isNaN_eq_false_of_isFinite hy]

theorem isInfinite_eq_false_of_isFinite {x : Binary64} (h : x.isFinite = true) : x.isInfinite = false := by
  simp only [isFinite, isInfinite, decide_eq_true_eq, decide_eq_false_iff_not] at *
  omega

section

variable {negative : Bool} {m : Nat}

theorem rank_ofSignMagnitude (h : m ≤ infinityBits) :
    (ofSignMagnitude negative m).rank = if negative then -(m : Int) else m := by
  obtain ⟨hsign, hbits⟩ := isNegative_ofSignMagnitude negative h
  rw [rank, hsign, hbits]

theorem isNaN_ofSignMagnitude (h : m ≤ infinityBits) : (ofSignMagnitude negative m).isNaN = false := by
  rw [isNaN, (isNegative_ofSignMagnitude negative h).2]
  exact decide_eq_false (Nat.not_lt.mpr h)

end

/-- Units are counted in the order of numbers. -/
theorem signedUnits_le_iff {x y : Binary64} : x.signedUnits ≤ y.signedUnits ↔ x.rank ≤ y.rank := by
  have hle := unitsOfBits_strictMono.le_iff_le (a := x.magnitudeBits) (b := y.magnitudeBits)
  have hge := unitsOfBits_strictMono.le_iff_le (a := y.magnitudeBits) (b := x.magnitudeBits)
  have hx := unitsOfBits_strictMono.le_iff_le (a := x.magnitudeBits) (b := 0)
  have hy := unitsOfBits_strictMono.le_iff_le (a := y.magnitudeBits) (b := 0)
  rw [unitsOfBits_zero] at hx hy
  unfold signedUnits rank units
  split <;> split <;> omega

theorem rank_zero : zero.rank = 0 := by decide

theorem signedUnits_zero : zero.signedUnits = 0 := by decide

theorem signedUnits_nonneg {x : Binary64} (h : 0 ≤ x.rank) : 0 ≤ x.signedUnits := by
  rw [← signedUnits_zero]
  exact signedUnits_le_iff.mpr (rank_zero.le.trans h)

/-! ### Sums -/

theorem rank_ofSignedUnits (zeroSign : Bool) (n : Int) :
    (ofSignedUnits zeroSign n).rank = if n < 0 then -(roundUnits n.natAbs 1 : Int) else roundUnits n.natAbs 1 := by
  unfold ofSignedUnits
  split
  · rename_i hzero
    rw [hzero, rank_ofSignMagnitude (Nat.zero_le _), Int.natAbs_zero, roundUnits_zero]
    cases zeroSign <;> rfl
  · rw [rank_ofSignMagnitude (roundUnits_le _ _)]
    simp only [decide_eq_true_eq]

theorem isNaN_ofSignedUnits (zeroSign : Bool) (n : Int) : (ofSignedUnits zeroSign n).isNaN = false := by
  unfold ofSignedUnits
  split
  · exact isNaN_ofSignMagnitude (Nat.zero_le _)
  · exact isNaN_ofSignMagnitude (roundUnits_le _ _)

theorem rank_ofSignedUnits_mono (zeroSign zeroSign' : Bool) {n n' : Int} (h : n ≤ n') :
    (ofSignedUnits zeroSign n).rank ≤ (ofSignedUnits zeroSign' n').rank := by
  rw [rank_ofSignedUnits, rank_ofSignedUnits]
  split <;> split
  · have := roundUnits_mono 1 (show n'.natAbs ≤ n.natAbs by omega)
    omega
  · omega
  · omega
  · have := roundUnits_mono 1 (show n.natAbs ≤ n'.natAbs by omega)
    omega

/-- A finite number is the one nearest to its units. -/
theorem rank_ofSignedUnits_signedUnits (zeroSign : Bool) {x : Binary64} (h : x.isFinite = true) :
    (ofSignedUnits zeroSign x.signedUnits).rank = x.rank := by
  have hround := roundUnits_unitsOfBits (of_decide_eq_true h)
  have hzero := unitsOfBits_strictMono.le_iff_le (a := x.magnitudeBits) (b := 0)
  rw [unitsOfBits_zero] at hzero
  rw [rank_ofSignedUnits]
  unfold signedUnits rank
  cases x.isNegative
  · simp only [Bool.false_eq_true, if_false, Int.natAbs_natCast, units, hround]
    exact if_neg (by omega)
  · simp only [if_true, Int.natAbs_neg, Int.natAbs_natCast, units, hround]
    split <;> omega

section

variable {x y z : Binary64}

theorem add_eq (hx : x.isFinite = true) (hy : y.isFinite = true) :
    x + y = ofSignedUnits (x.isNegative && y.isNegative) (x.signedUnits + y.signedUnits) := by
  change Binary64.add x y = _
  simp only [Binary64.add, isNaN_eq_false_of_isFinite hx, isNaN_eq_false_of_isFinite hy,
    isInfinite_eq_false_of_isFinite hx, isInfinite_eq_false_of_isFinite hy, Bool.or_self, Bool.false_eq_true, if_false]

theorem isNaN_add (hx : x.isFinite = true) (hy : y.isFinite = true) : (x + y).isNaN = false := by
  rw [add_eq hx hy]
  exact isNaN_ofSignedUnits _ _

theorem rank_add_le_rank_add (hx : x.isFinite = true) (hy : y.isFinite = true) (hz : z.isFinite = true)
    (h : x.rank ≤ y.rank) : (x + z).rank ≤ (y + z).rank := by
  rw [add_eq hx hz, add_eq hy hz]
  have := signedUnits_le_iff.mpr h
  exact rank_ofSignedUnits_mono _ _ (by omega)

/-- Nothing changes where a zero is added. -/
theorem rank_add_of_rank_eq_zero (hx : x.isFinite = true) (hz : z.isFinite = true) (h : x.rank = 0) :
    (x + z).rank = z.rank := by
  have hunits : x.signedUnits = 0 := by
    have hle := signedUnits_le_iff.mpr (h.le.trans rank_zero.ge)
    rw [signedUnits_zero] at hle
    exact Int.le_antisymm hle (signedUnits_nonneg h.ge)
  rw [add_eq hx hz, hunits, Int.zero_add]
  exact rank_ofSignedUnits_signedUnits _ hz

theorem rank_le_rank_add (hx : x.isFinite = true) (hz : z.isFinite = true) (h : 0 ≤ x.rank) :
    z.rank ≤ (x + z).rank := by
  have hzero : (zero + z).rank = z.rank := rank_add_of_rank_eq_zero (by decide) hz (by decide)
  rw [← hzero]
  exact rank_add_le_rank_add (by decide) hx hz h

/-- A number without sign is not changed when it is added to zero. -/
theorem zero_add_ofSignMagnitude {m : Nat} (h : m < infinityBits) :
    zero + ofSignMagnitude false m = ofSignMagnitude false m := by
  obtain ⟨hsign, hbits⟩ := isNegative_ofSignMagnitude false h.le
  have hfinite : (ofSignMagnitude false m).isFinite = true := by
    rw [isFinite, hbits]
    exact decide_eq_true h
  have hunits : (ofSignMagnitude false m).signedUnits = unitsOfBits m := by
    rw [signedUnits, hsign, units, hbits]
    rfl
  rw [add_eq (by decide) hfinite, signedUnits_zero, Int.zero_add, hunits, ofSignedUnits]
  split
  · rename_i hzero
    have hle := unitsOfBits_strictMono.le_iff_le (a := m) (b := 0)
    rw [unitsOfBits_zero] at hle
    have hm : m = 0 := by omega
    rw [hm]
    rfl
  · rw [Int.natAbs_natCast, roundUnits_unitsOfBits h, decide_eq_false (by omega)]

/-! ### Products and quotients -/

theorem units_eq_zero (h : 0 ≤ x.rank) (hsign : x.isNegative = true) : x.units = 0 := by
  have hbits : x.magnitudeBits = 0 := by
    rw [rank, hsign, if_pos rfl] at h
    omega
  rw [units, hbits, unitsOfBits_zero]

theorem rank_of_sign {negative : Bool} {m : Nat} (hm : m ≤ infinityBits) (h : negative = true → m = 0) :
    (ofSignMagnitude negative m).rank = m := by
  rw [rank_ofSignMagnitude hm]
  split
  · rename_i hsign
    rw [h hsign]
    rfl
  · rfl

/-- Of numbers that are not below zero the magnitudes are multiplied. -/
theorem rank_mul (hx : x.isFinite = true) (hy : y.isFinite = true) (hxr : 0 ≤ x.rank) (hyr : 0 ≤ y.rank) :
    (x * y).isNaN = false ∧ (x * y).rank = roundUnits (x.units * y.units) (1 <<< unitShift) := by
  have hproduct : x * y = ofSignMagnitude (x.isNegative != y.isNegative)
      (roundUnits (x.units * y.units) (1 <<< unitShift)) := by
    change Binary64.mul x y = _
    simp only [Binary64.mul, isNaN_eq_false_of_isFinite hx, isNaN_eq_false_of_isFinite hy,
      isInfinite_eq_false_of_isFinite hx, isInfinite_eq_false_of_isFinite hy, Bool.or_self, Bool.false_eq_true,
      if_false]
  rw [hproduct]
  refine ⟨isNaN_ofSignMagnitude (roundUnits_le _ _), rank_of_sign (roundUnits_le _ _) fun hsign => ?_⟩
  have hzero : x.units * y.units = 0 := by
    cases hxs : x.isNegative with
    | true => rw [units_eq_zero hxr hxs, Nat.zero_mul]
    | false =>
      rw [hxs] at hsign
      rw [units_eq_zero hyr (by simpa using hsign), Nat.mul_zero]
  rw [hzero, roundUnits_zero]

theorem rank_div_nonneg (hfinite : (x / y).isFinite = true) (hx : 0 ≤ x.rank) (hy : y.isFinite = true)
    (hsign : y.isNegative = false) (hzero : y.isZero = false) : 0 ≤ (x / y).rank := by
  have hquotient : x / y = if x.isNaN then nan
      else if x.isInfinite then ofSignMagnitude x.isNegative infinityBits
      else ofSignMagnitude x.isNegative (roundUnits (x.units <<< unitShift) y.units) := by
    change Binary64.div x y = _
    simp only [Binary64.div, isNaN_eq_false_of_isFinite hy, isInfinite_eq_false_of_isFinite hy, hsign, hzero,
      Bool.or_false, Bool.false_eq_true, if_false, Bool.bne_false]
  rw [hquotient] at hfinite ⊢
  split at hfinite
  · cases hfinite
  · rename_i hnan
    rw [if_neg hnan]
    split at hfinite
    · rw [isFinite, (isNegative_ofSignMagnitude _ (Nat.le_refl _)).2] at hfinite
      exact absurd (of_decide_eq_true hfinite) (Nat.lt_irrefl _)
    · rename_i hinf
      rw [if_neg hinf, rank_of_sign (roundUnits_le _ _)]
      · exact Int.natCast_nonneg _
      · intro hneg
        rw [units_eq_zero hx hneg, Nat.zero_shiftLeft, roundUnits_zero]

end

end Binary64

end Vetting
