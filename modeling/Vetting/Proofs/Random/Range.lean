import Vetting.Proofs.Binary64.Order
import Vetting.Proofs.Random.Uniform

/-!
# Draws stay within their ranges

A whole number that is drawn lies in its range, also where that is all of the signed 64-bit numbers
(`Draw.int_meets_range`). So does a double (`Draw.float_meets_range`), although rounding could carry it past the upper
end: the scale is lowered until the largest fraction stays below that end, and rounding keeps the order of all others.
-/

namespace Vetting

namespace Draw

open Binary64

variable {Q : RangeFault → Prop}

/-! ### Whole numbers -/

/-- The range of all signed 64-bit numbers is the only one of as many. -/
theorem int_meets_range {low high : Int} (h : low ≤ high) (hlow : -(UInt64.size / 2 : Int) ≤ low)
    (hhigh : high ≤ (UInt64.size / 2 : Int) - 1) : (int low high).Meets (fun n => low ≤ n ∧ n ≤ high) Q := by
  unfold int
  simp only
  rw [if_neg (Int.not_lt.mpr h)]
  split
  · rename_i hwide
    refine word64_meets.bind fun v _ => meets_pure ?_
    have hleast := Int.le_bmod (x := (v : Int)) (m := UInt64.size) (by decide)
    have hmost := Int.bmod_lt (x := (v : Int)) (m := UInt64.size) (by decide)
    simp only [UInt64.size] at *
    omega
  · exact (below_meets (by omega)).bind fun k hk => meets_pure (by omega)

/-! ### Doubles -/

theorem maxFraction_isFinite : maxFraction.isFinite = true := by decide +kernel

theorem rank_maxFraction_nonneg : 0 ≤ maxFraction.rank := by decide +kernel

section

variable {low high scale : Binary64}

/-- The place of the largest value that a scale gives. -/
theorem rank_largest (hscale : scale.isFinite = true) (h : 0 ≤ scale.rank) :
    (scale * maxFraction).isNaN = false ∧
      (scale * maxFraction).rank = roundUnits (scale.units * maxFraction.units) (1 <<< unitShift) :=
  rank_mul hscale maxFraction_isFinite h rank_maxFraction_nonneg

/-- Nothing stands above an infinite sum. -/
theorem numLt_add_of_isInfinite {x : Binary64} (hhigh : high.isFinite = true) (hlow : low.isFinite = true)
    (hnan : x.isNaN = false) (h : x.rank = infinityBits) : high.numLt (x + low) = true := by
  have hinf : x.isInfinite = true := by
    rw [isInfinite, ← natAbs_rank, h]
    rfl
  have hsum : x + low = x := by
    change Binary64.add x low = x
    simp only [Binary64.add, hnan, isNaN_eq_false_of_isFinite hlow, isInfinite_eq_false_of_isFinite hlow, hinf,
      Bool.or_self, Bool.false_and, Bool.false_eq_true, if_false, if_true]
  rw [isFinite_iff] at hhigh
  rw [hsum, numLt, isNaN_eq_false_of_isFinite (isFinite_iff.mpr hhigh), hnan, h]
  simp only [Bool.not_false, Bool.true_and, decide_eq_true_eq]
  omega

/-- A scale with which all values stay in a range. -/
structure Scales (low high scale : Binary64) : Prop where
  finite : scale.isFinite = true
  nonneg : 0 ≤ scale.rank
  below : high.numLt (scale * maxFraction + low) = false

/-- With a scale of zero there is nothing but the lower end. -/
theorem scales_of_rank_eq_zero (hlow : low.isFinite = true) (hle : low.rank ≤ high.rank)
    (hscale : scale.isFinite = true) (h : scale.rank = 0) : Scales low high scale := by
  have hunits : scale.units = 0 := by
    have hbits := natAbs_rank scale
    rw [h] at hbits
    rw [units, ← hbits]
    exact unitsOfBits_zero
  have hproduct : (scale * maxFraction).rank = 0 := by
    rw [(rank_largest hscale h.ge).2, hunits, Nat.zero_mul, roundUnits_zero]
    rfl
  have hfinite : (scale * maxFraction).isFinite = true := by
    rw [isFinite_iff, hproduct]
    decide
  have hsum := rank_add_of_rank_eq_zero hfinite hlow hproduct
  refine ⟨hscale, h.ge, ?_⟩
  simp only [numLt, hsum, decide_eq_false (Int.not_lt.mpr hle), Bool.and_false]

/-- One step down from a scale above zero. -/
theorem predecessor_below (h : 0 < scale.rank) (hscale : scale.isFinite = true) :
    scale.predecessor.isFinite = true ∧ 0 ≤ scale.predecessor.rank ∧
      scale.predecessor.magnitudeBits + 1 = scale.magnitudeBits := by
  have hsign : scale.isNegative = false := by
    cases hsign : scale.isNegative with
    | false => rfl
    | true =>
      rw [rank, hsign] at h
      simp only [if_true] at h
      omega
  have hpositive : 0 < scale.magnitudeBits := by
    rw [rank, hsign] at h
    simpa using h
  have hbits : scale.bits.toNat = scale.magnitudeBits := by
    have := of_decide_eq_false hsign
    exact (Nat.mod_eq_of_lt (by omega)).symm
  have hbits' : scale.predecessor.bits.toNat = scale.magnitudeBits - 1 := by
    have hle : (1 : UInt64) ≤ scale.bits := by
      rw [UInt64.le_iff_toNat_le, hbits]
      exact hpositive
    rw [predecessor, UInt64.toNat_sub_of_le _ _ hle, hbits]
    rfl
  have hlt : scale.magnitudeBits < signBit := Nat.mod_lt _ (by decide)
  have hmagnitude : scale.predecessor.magnitudeBits = scale.magnitudeBits - 1 := by
    rw [magnitudeBits, hbits', Nat.mod_eq_of_lt (by omega)]
  have hsign' : scale.predecessor.isNegative = false := by
    rw [isNegative, hbits']
    exact decide_eq_false (by omega)
  refine ⟨?_, ?_, by omega⟩
  · simp only [isFinite, decide_eq_true_eq] at *
    omega
  · rw [rank, hsign', hmagnitude]
    simp

/-- A scale is lowered until it fits: at zero at the latest. -/
theorem scales_fitScale (hlow : low.isFinite = true) (hle : low.rank ≤ high.rank) (fuel : Nat)
    (hscale : scale.isFinite = true) (h : 0 ≤ scale.rank) (hfuel : scale.magnitudeBits ≤ fuel) :
    Scales low high (fitScale low high fuel scale) := by
  induction fuel generalizing scale with
  | zero =>
    have hzero : scale.rank = 0 := by
      have := natAbs_rank scale
      omega
    exact scales_of_rank_eq_zero hlow hle hscale hzero
  | succ fuel ih =>
    rw [fitScale]
    cases hbelow : high.numLt (scale * maxFraction + low) with
    | false => exact ⟨hscale, h, hbelow⟩
    | true =>
      have hpositive : 0 < scale.rank := by
        refine lt_of_le_of_ne h fun hzero => ?_
        rw [(scales_of_rank_eq_zero hlow hle hscale hzero.symm).below] at hbelow
        cases hbelow
      obtain ⟨hfinite, hnonneg, hstep⟩ := predecessor_below hpositive hscale
      exact ih hfinite hnonneg (by omega)

/-- All fractions of 52 bits. -/
theorem fraction_le {v : Nat} (hv : v < fractionCount) :
    (ofRatio false v fractionCount).isFinite = true ∧ 0 ≤ (ofRatio false v fractionCount).rank ∧
      (ofRatio false v fractionCount).units ≤ maxFraction.units := by
  have hround : roundUnits (v <<< unitShift) fractionCount
      ≤ roundUnits ((fractionCount - 1) <<< unitShift) fractionCount := by
    refine roundUnits_mono _ ?_
    rw [Nat.shiftLeft_eq, Nat.shiftLeft_eq]
    exact Nat.mul_le_mul_right _ (by omega)
  have hparts := isNegative_ofSignMagnitude false (roundUnits_le (v <<< unitShift) fractionCount)
  have hlast := isNegative_ofSignMagnitude false (roundUnits_le ((fractionCount - 1) <<< unitShift) fractionCount)
  have hmagnitude : (ofRatio false v fractionCount).magnitudeBits ≤ maxFraction.magnitudeBits := by
    rw [maxFraction, ofRatio, ofRatio, hparts.2, hlast.2]
    exact hround
  refine ⟨?_, ?_, unitsOfBits_strictMono.le_iff_le.mpr hmagnitude⟩
  · have := of_decide_eq_true maxFraction_isFinite
    exact decide_eq_true (by omega)
  · rw [ofRatio, rank_ofSignMagnitude (roundUnits_le _ _)]
    exact Int.natCast_nonneg _

/-- With a scale that fits, every fraction gives a number of the range. -/
theorem Scales.between (h : Scales low high scale) (hlow : low.isFinite = true) (hhigh : high.isFinite = true)
    {v : Nat} (hv : v < fractionCount) :
    low.rank ≤ (ofRatio false v fractionCount * scale + low).rank ∧
      (ofRatio false v fractionCount * scale + low).rank ≤ high.rank := by
  obtain ⟨hfraction, hnonneg, hunits⟩ := fraction_le hv
  obtain ⟨hnan, hlargest⟩ := rank_largest h.finite h.nonneg
  obtain ⟨-, hvalue⟩ := rank_mul hfraction h.finite hnonneg h.nonneg
  have hmost : (ofRatio false v fractionCount * scale).rank ≤ (scale * maxFraction).rank := by
    rw [hvalue, hlargest, Int.ofNat_le, Nat.mul_comm scale.units]
    exact roundUnits_mono _ (Nat.mul_le_mul_right _ hunits)
  have hleast : 0 ≤ (ofRatio false v fractionCount * scale).rank := by
    rw [hvalue]
    exact Int.natCast_nonneg _
  have hfinite : (scale * maxFraction).isFinite = true := by
    rw [isFinite_iff]
    have hle := roundUnits_le (scale.units * maxFraction.units) (1 <<< unitShift)
    have hne : (scale * maxFraction).rank ≠ infinityBits := fun hinf => by
      have habove := numLt_add_of_isInfinite hhigh hlow hnan hinf
      rw [h.below] at habove
      cases habove
    omega
  have hproduct : (ofRatio false v fractionCount * scale).isFinite = true :=
    isFinite_of_between (show zero.isFinite = true by decide) hfinite (rank_zero.le.trans hleast) hmost
  have hbelow : (scale * maxFraction + low).rank ≤ high.rank := by
    have := h.below
    simpa [numLt, isNaN_eq_false_of_isFinite hhigh, isNaN_add hfinite hlow] using this
  exact ⟨rank_le_rank_add hproduct hlow hleast, (rank_add_le_rank_add hproduct hfinite hlow hmost).trans hbelow⟩

theorem signedUnits_neg (hlow : low.isFinite = true) :
    low.neg.isFinite = true ∧ low.neg.signedUnits = -low.signedUnits := by
  have hparts := isNegative_ofSignMagnitude (!low.isNegative) (of_decide_eq_true hlow).le
  have hmagnitude : low.neg.magnitudeBits = low.magnitudeBits := hparts.2
  have hsign : low.neg.isNegative = !low.isNegative := hparts.1
  refine ⟨?_, ?_⟩
  · rw [isFinite, hmagnitude]
    exact hlow
  · unfold signedUnits units
    rw [hsign, hmagnitude]
    cases low.isNegative <;> simp

/-- The width of a range is no number below zero. -/
theorem rank_sub_nonneg (hlow : low.isFinite = true) (hhigh : high.isFinite = true) (h : low.rank ≤ high.rank) :
    0 ≤ (high - low).rank := by
  obtain ⟨hfinite, hneg⟩ := signedUnits_neg hlow
  have hsub : high - low = high + low.neg := rfl
  have hunits := signedUnits_le_iff.mpr h
  rw [hsub, add_eq hhigh hfinite, rank_ofSignedUnits, hneg, if_neg (by omega)]
  exact Int.natCast_nonneg _

/-- A double that is drawn is a finite number of the range. -/
theorem float_meets_range (hlow : low.isFinite = true) (hhigh : high.isFinite = true) (h : low.numLe high = true) :
    (float low high).Meets (fun x => x.isFinite = true ∧ low.numLe x = true ∧ x.numLe high = true)
      fun _ => True := by
  have hle := (numLe_iff hlow hhigh).mp h
  unfold float
  simp only [h, Bool.not_true, Bool.false_eq_true, if_false]
  split
  · exact (meets_throw trivial).bind (P := fun _ => False) fun _ ha => ha.elim
  · rename_i hwidth
    have hscale : ((high - low) / maxFraction).isFinite = true := by simpa using hwidth
    have hnonneg : 0 ≤ ((high - low) / maxFraction).rank :=
      rank_div_nonneg hscale (rank_sub_nonneg hlow hhigh hle) maxFraction_isFinite (by decide +kernel) (by decide +kernel)
    have hfits := scales_fitScale hlow hle _ hscale hnonneg (Nat.le_refl _)
    refine word64_meets.bind fun v hv => meets_pure ?_
    have hshift : v >>> 12 < fractionCount := by
      rw [Nat.shiftRight_eq_div_pow, Nat.div_lt_iff_lt_mul (by decide)]
      exact hv
    obtain ⟨hleast, hmost⟩ := hfits.between hlow hhigh hshift
    have hfinite := isFinite_of_between hlow hhigh hleast hmost
    exact ⟨hfinite, (numLe_iff hlow hfinite).mpr hleast, (numLe_iff hfinite hhigh).mpr hmost⟩

end

end Draw

end Vetting
