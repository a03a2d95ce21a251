import Vetting.Random.Uniform

/-!
# What uniform draws give

`Draw.Meets` says of a draw what it gives and why it is refused if it is, whatever words are left in the stream. Its
rules follow the draws: `Draw.Meets.bind` for one after the other, and one lemma for each of the basic draws.
-/

namespace Vetting

/-! ### Words -/

theorem WordStream.next64_lt (s : WordStream) : s.next64.1 < UInt64.size := by
  have hlow : s.next.1.toNat < UInt32.size := s.next.1.toNat_lt
  have hhigh : s.next.2.next.1.toNat < UInt32.size := s.next.2.next.1.toNat_lt
  have hvalue : s.next64.1 = s.next.1.toNat + UInt32.size * s.next.2.next.1.toNat := rfl
  simp only [UInt32.size, UInt64.size] at *
  omega

namespace Draw

/-! ### Rules -/

/-- From every stream a draw gives something of the kind `P`, or is refused for a reason of the kind `Q`. -/
def Meets (d : Draw α) (P : α → Prop) (Q : RangeFault → Prop) : Prop :=
  ∀ s, match d s with
    | .ok (a, _) => P a
    | .error fault => Q fault

variable {P : α → Prop} {Q : RangeFault → Prop} {d : Draw α} {s : WordStream}

theorem Meets.of_ok {s' : WordStream} {a : α} (h : d.Meets P Q) (hd : d s = .ok (a, s')) : P a := by
  have hs := h s
  rw [hd] at hs
  exact hs

theorem Meets.of_error {fault : RangeFault} (h : d.Meets P Q) (hd : d s = .error fault) : Q fault := by
  have hs := h s
  rw [hd] at hs
  exact hs

/-- A draw that is never refused gives something. -/
theorem Meets.exists_eq_ok (h : d.Meets P fun _ => False) (s : WordStream) :
    ∃ a s', d s = .ok (a, s') ∧ P a := by
  cases hd : d s with
  | error fault => exact (h.of_error hd).elim
  | ok drawn => exact ⟨drawn.1, drawn.2, rfl, h.of_ok hd⟩

theorem Meets.mono {P' : α → Prop} {Q' : RangeFault → Prop} (h : d.Meets P Q) (hP : ∀ a, P a → P' a)
    (hQ : ∀ fault, Q fault → Q' fault) : d.Meets P' Q' := by
  intro s
  cases hd : d s with
  | error fault => exact hQ fault (h.of_error hd)
  | ok drawn => exact hP drawn.1 (h.of_ok hd)

theorem meets_true (d : Draw α) : d.Meets (fun _ => True) fun _ => True := by
  intro s
  cases d s <;> trivial

theorem meets_pure {a : α} (ha : P a) : (pure a : Draw α).Meets P Q := fun _ => ha

theorem meets_throw {fault : RangeFault} (h : Q fault) : (throw fault : Draw α).Meets P Q := fun _ => h

theorem Meets.bind {f : α → Draw β} {P' : β → Prop} (h : d.Meets P Q) (hf : ∀ a, P a → (f a).Meets P' Q) :
    (d >>= f).Meets P' Q := by
  intro s
  cases hd : d s with
  | error fault =>
    have hbind : (d >>= f) s = .error fault := by
      show (d s).bind _ = _
      rw [hd]
      rfl
    rw [hbind]
    exact h.of_error hd
  | ok drawn =>
    have hbind : (d >>= f) s = f drawn.1 drawn.2 := by
      show (d s).bind _ = _
      rw [hd]
      rfl
    rw [hbind]
    exact hf drawn.1 (h.of_ok hd) drawn.2

/-- One draw after the other, where neither is refused. -/
theorem bind_eq_ok_iff {f : α → Draw β} {b : β} {s' : WordStream} :
    (d >>= f) s = .ok (b, s') ↔ ∃ a between, d s = .ok (a, between) ∧ f a between = .ok (b, s') := by
  have hbind : (d >>= f) s = (d s).bind fun drawn => f drawn.1 drawn.2 := rfl
  rw [hbind]
  constructor
  · intro h
    cases hd : d s with
    | error fault =>
      rw [hd] at h
      cases h
    | ok drawn =>
      rw [hd] at h
      exact ⟨drawn.1, drawn.2, rfl, h⟩
  · rintro ⟨a, between, hd, hf⟩
    rw [hd]
    exact hf

/-! ### Basic draws -/

theorem word_meets : word.Meets (fun _ => True) Q := fun _ => trivial

theorem word64_meets : word64.Meets (· < UInt64.size) Q := fun s => s.next64_lt

theorem mul_div_lt {v size : Nat} (hv : v < UInt64.size) (hsize : 0 < size) : v * size / UInt64.size < size := by
  rw [Nat.div_lt_iff_lt_mul (by decide), Nat.mul_comm]
  exact Nat.mul_lt_mul_of_pos_left hv hsize

theorem belowZone_meets {size : Nat} (hsize : 0 < size) (zone fuel : Nat) :
    (belowZone size zone fuel).Meets (· < size) Q := by
  induction fuel with
  | zero => exact word64_meets.bind fun v hv => meets_pure (mul_div_lt hv hsize)
  | succ fuel ih =>
    refine word64_meets.bind fun v hv => ?_
    split
    · exact meets_pure (mul_div_lt hv hsize)
    · exact ih

theorem below_meets {size : Nat} (hsize : 0 < size) : (below size).Meets (· < size) Q :=
  belowZone_meets hsize _ _

theorem nat_meets (high : Nat) : (nat high).Meets (· ≤ high) Q := by
  unfold nat
  split
  · rename_i hwide
    exact word64_meets.mono (fun v hv => Nat.le_of_lt_succ (Nat.lt_of_lt_of_le hv hwide)) fun _ h => h
  · exact (below_meets (Nat.succ_pos high)).mono (fun _ hv => Nat.le_of_lt_succ hv) fun _ h => h

theorem bool_meets : bool.Meets (fun _ => True) Q := word_meets.bind fun _ _ => meets_pure trivial

/-- A range of whole numbers that is not empty can be drawn from. -/
theorem int_meets {low high : Int} (h : low ≤ high) : (int low high).Meets (fun _ => True) Q := by
  unfold int
  simp only
  rw [if_neg (Int.not_lt.mpr h)]
  split
  · exact word64_meets.bind fun _ _ => meets_pure trivial
  · exact (below_meets (by omega)).bind fun _ _ => meets_pure trivial

/-- Whether a range of doubles can be drawn from: its width is scaled up, and still is finite. -/
def Fits (low high : Binary64) : Prop := ((high - low) / maxFraction).isFinite = true

instance (low high : Binary64) : Decidable (Fits low high) := inferInstanceAs (Decidable (_ = true))

/-- A range of doubles that is not empty is refused if and only if it is too wide. -/
theorem float_meets {low high : Binary64} (h : low.numLe high = true) :
    (float low high).Meets (fun _ => Fits low high) (fun fault => fault = .tooWide ∧ ¬ Fits low high) := by
  unfold float
  simp only [h, Bool.not_true, Bool.false_eq_true, if_false]
  by_cases hfits : Fits low high
  · have hfinite : ((high - low) / maxFraction).isFinite = true := hfits
    simp only [hfinite, Bool.not_true, Bool.false_eq_true, if_false]
    exact word64_meets.bind fun _ _ => meets_pure hfits
  · rw [if_pos (by simpa only [Fits, Bool.not_eq_true, Bool.not_eq_true'] using hfits)]
    exact (meets_throw ⟨rfl, hfits⟩).bind (P := fun _ => False) fun _ ha => ha.elim

end Draw

end Vetting
