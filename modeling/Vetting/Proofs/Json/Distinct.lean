import Vetting.Json

/-!
# Values without repetitions

Equality of values is symmetric and transitive, on all values (`Json.equal_comm`, `Json.equal_trans`); a double that is
not a number keeps it from being reflexive. So of the values in a list that are equal to each other, the first one can
stand for all. `Firsts` says what `List.eraseDupsBy` leaves of a list, by one rule for each step.
-/

namespace Vetting

/-! ### Keeping the first of its kind -/

/-- What is left of a list where of those that are the same only the first is kept. -/
inductive Firsts {α : Type} (same : α → α → Bool) : List α → List α → Prop
  | nil : Firsts same [] []
  | cons {a : α} {rest kept : List α} :
      Firsts same (rest.filter fun b => decide (same b a = false)) kept → Firsts same (a :: rest) (a :: kept)

theorem firsts_eraseDupsBy {α : Type} (same : α → α → Bool) (l : List α) : Firsts same l (l.eraseDupsBy same) := by
  induction hn : l.length using Nat.strongRecOn generalizing l with
  | ind n ih =>
    cases l with
    | nil => exact .nil
    | cons a rest =>
      have hshort := List.length_filter_le (fun b => decide (same b a = false)) rest
      rw [List.length_cons] at hn
      rw [List.eraseDupsBy_cons]
      exact .cons (ih _ (by omega) _ rfl)

namespace Firsts

variable {α : Type} {same : α → α → Bool} {l kept : List α} {a : α}

theorem mem_of_mem (h : Firsts same l kept) (ha : a ∈ kept) : a ∈ l := by
  induction h with
  | nil => exact ha
  | cons _ ih =>
    obtain rfl | ha := List.mem_cons.mp ha
    · exact List.mem_cons_self
    · exact List.mem_cons_of_mem _ (List.mem_filter.mp (ih ha)).1

/-- No two that are kept are the same. -/
theorem pairwise (h : Firsts same l kept) : kept.Pairwise fun a b => same b a = false := by
  induction h with
  | nil => exact .nil
  | cons hrest ih => exact .cons (fun b hb => of_decide_eq_true (List.mem_filter.mp (hrest.mem_of_mem hb)).2) ih

/-- What is not kept is the same as one that is. -/
theorem exists_of_mem (h : Firsts same l kept) (ha : a ∈ l) : a ∈ kept ∨ ∃ b ∈ kept, same a b = true := by
  induction h with
  | nil => exact .inl ha
  | @cons first rest kept _ ih =>
    obtain rfl | ha := List.mem_cons.mp ha
    · exact .inl List.mem_cons_self
    · cases hsame : same a first with
      | true => exact .inr ⟨first, List.mem_cons_self, hsame⟩
      | false =>
        obtain hkept | ⟨b, hb, hb'⟩ := ih (List.mem_filter.mpr ⟨ha, decide_eq_true hsame⟩)
        · exact .inl (List.mem_cons_of_mem _ hkept)
        · exact .inr ⟨b, List.mem_cons_of_mem _ hb, hb'⟩

theorem eq_nil_iff (h : Firsts same l kept) : kept = [] ↔ l = [] := by
  cases h with
  | nil => exact Iff.rfl
  | cons _ => simp

/-- What is kept stands where it comes first of all that are the same. -/
theorem first (htrans : ∀ a b c, same a b = true → same b c = true → same a c = true) (h : Firsts same l kept)
    (ha : a ∈ kept) : ∃ before after, l = before ++ a :: after ∧ ∀ b ∈ before, same a b = false := by
  induction h with
  | nil => cases ha
  | @cons c rest kept hrest ih =>
    obtain rfl | ha := List.mem_cons.mp ha
    · exact ⟨[], rest, rfl, List.forall_mem_nil _⟩
    · have hac : same a c = false := of_decide_eq_true (List.mem_filter.mp (hrest.mem_of_mem ha)).2
      obtain ⟨before, after, hsplit, hbefore⟩ := ih ha
      obtain ⟨front, back, rfl, rfl, hback⟩ := List.filter_eq_append_iff.mp hsplit
      obtain ⟨skipped, after', rfl, hskipped, -, -⟩ := List.filter_eq_cons_iff.mp hback
      refine ⟨c :: (front ++ skipped), after', by simp, List.forall_mem_cons.mpr ⟨hac, fun b hb => ?_⟩⟩
      -- What was passed over on the way is the same as `c`, so `a` is not the same as it.
      have hpassed (hbc : same b c = true) : same a b = false := by
        cases hab : same a b with
        | false => rfl
        | true => exact (htrans a b c hab hbc).symm.trans hac
      obtain hb | hb := List.mem_append.mp hb
      · cases hbc : same b c with
        | true => exact hpassed hbc
        | false => exact hbefore b (List.mem_filter.mpr ⟨hb, decide_eq_true hbc⟩)
      · have hbc := hskipped b hb
        exact hpassed (by simpa using hbc)

end Firsts

/-! ### Equality of values -/

theorem Binary64.numEq_comm (x y : Binary64) : x.numEq y = y.numEq x := by
  rw [numEq, numEq, Bool.and_comm (!x.isNaN), BEq.comm]

theorem Binary64.numEq_trans {x y z : Binary64} (h : x.numEq y = true) (h' : y.numEq z = true) : x.numEq z = true := by
  simp only [numEq, Bool.and_eq_true, beq_iff_eq] at *
  exact ⟨⟨h.1.1, h'.1.2⟩, h.2.trans h'.2⟩

namespace Json

mutual

theorem equal_comm : (v w : Json) → equal v w = equal w v
  | .null, w => by cases w <;> rfl
  | .bool a, w => by
    cases w with
    | bool b => exact BEq.comm
    | _ => rfl
  | .int a, w => by
    cases w with
    | int b => exact BEq.comm
    | _ => rfl
  | .float a, w => by
    cases w with
    | float b => exact a.numEq_comm b
    | _ => rfl
  | .str a, w => by
    cases w with
    | str b => exact BEq.comm
    | _ => rfl
  | .arr a, w => by
    cases w with
    | arr b => exact equalItems_comm a b
    | _ => rfl
  | .obj a, w => by
    cases w with
    | obj b => exact equalFields_comm a b
    | _ => rfl
termination_by structural v => v

theorem equalItems_comm : (vs ws : List Json) → equalItems vs ws = equalItems ws vs
  | [], ws => by cases ws <;> rfl
  | v :: vs, ws => by
    cases ws with
    | nil => rfl
    | cons w ws =>
      change (equal v w && equalItems vs ws) = (equal w v && equalItems ws vs)
      rw [equal_comm v w, equalItems_comm vs ws]
termination_by structural vs => vs

theorem equalFields_comm : (fs gs : List (String × Json)) → equalFields fs gs = equalFields gs fs
  | [], gs => by cases gs <;> rfl
  | f :: fs, gs => by
    cases gs with
    | nil => rfl
    | cons g gs =>
      change (equalField f g && equalFields fs gs) = (equalField g f && equalFields gs fs)
      rw [equalField_comm f g, equalFields_comm fs gs]
termination_by structural fs => fs

theorem equalField_comm : (f g : String × Json) → equalField f g = equalField g f
  | (k, v), (l, w) => by
    change (k == l && equal v w) = (l == k && equal w v)
    rw [BEq.comm, equal_comm v w]
termination_by structural f => f

end

mutual

theorem equal_trans : (u v w : Json) → equal u v = true → equal v w = true → equal u w = true
  | .null, v, w, h, h' => by
    cases v with
    | null => exact h'
    | _ => cases h
  | .bool a, v, w, h, h' => by
    cases v with
    | bool b =>
      cases eq_of_beq h
      exact h'
    | _ => cases h
  | .int a, v, w, h, h' => by
    cases v with
    | int b =>
      cases eq_of_beq h
      exact h'
    | _ => cases h
  | .float a, v, w, h, h' => by
    cases v with
    | float b =>
      cases w with
      | float c => exact Binary64.numEq_trans h h'
      | _ => cases h'
    | _ => cases h
  | .str a, v, w, h, h' => by
    cases v with
    | str b =>
      cases eq_of_beq h
      exact h'
    | _ => cases h
  | .arr a, v, w, h, h' => by
    cases v with
    | arr b =>
      cases w with
      | arr c => exact equalItems_trans a b c h h'
      | _ => cases h'
    | _ => cases h
  | .obj a, v, w, h, h' => by
    cases v with
    | obj b =>
      cases w with
      | obj c => exact equalFields_trans a b c h h'
      | _ => cases h'
    | _ => cases h
termination_by structural u => u

theorem equalItems_trans :
    (us vs ws : List Json) → equalItems us vs = true → equalItems vs ws = true → equalItems us ws = true
  | [], [], ws, _, h' => h'
  | u :: us, v :: vs, w :: ws, h, h' => by
    have h : equal u v = true ∧ equalItems us vs = true := Bool.and_eq_true_iff.mp h
    have h' : equal v w = true ∧ equalItems vs ws = true := Bool.and_eq_true_iff.mp h'
    exact Bool.and_eq_true_iff.mpr ⟨equal_trans u v w h.1 h'.1, equalItems_trans us vs ws h.2 h'.2⟩
termination_by structural us => us

theorem equalFields_trans : (fs gs hs : List (String × Json)) →
    equalFields fs gs = true → equalFields gs hs = true → equalFields fs hs = true
  | [], [], hs, _, h' => h'
  | f :: fs, g :: gs, e :: es, h, h' => by
    have h : equalField f g = true ∧ equalFields fs gs = true := Bool.and_eq_true_iff.mp h
    have h' : equalField g e = true ∧ equalFields gs es = true := Bool.and_eq_true_iff.mp h'
    exact Bool.and_eq_true_iff.mpr ⟨equalField_trans f g e h.1 h'.1, equalFields_trans fs gs es h.2 h'.2⟩
termination_by structural fs => fs

theorem equalField_trans :
    (f g e : String × Json) → equalField f g = true → equalField g e = true → equalField f e = true
  | (k, u), (l, v), (m, w), h, h' => by
    have h : (k == l) = true ∧ equal u v = true := Bool.and_eq_true_iff.mp h
    have h' : (l == m) = true ∧ equal v w = true := Bool.and_eq_true_iff.mp h'
    cases eq_of_beq h.1
    exact Bool.and_eq_true_iff.mpr ⟨h'.1, equal_trans u v w h.2 h'.2⟩
termination_by structural f => f

end

end Json

end Vetting
