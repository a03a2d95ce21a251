import Vetting.Proofs.Json.Compact
import Vetting.Proofs.Property.Smallest

/-!
# Sorting counter-examples

Where sorting puts a counter-example does not depend on when it was found. Argument lists without odd numbers that
compare equal have one text, so they are the same (`Generator.eq_of_compareInputs_eq`), and no two that are gathered are
the same (`Property.different_gather`). So what is gathered can be sorted in one way only (`Property.eq_of_sorted`).

* `Property.sorting_consistent`: the comparison, and what is sorted by it.
* `Property.evaluate_perm`: the same cases in any order have one result.
-/

namespace Vetting

/-! ### Consistent comparisons -/

/-- What sorting takes for granted of a comparison. -/
structure Consistent {α : Type} (cmp : α → α → Ordering) : Prop where
  refl (a : α) : cmp a a = .eq
  swap (a b : α) : cmp b a = (cmp a b).swap
  trans (a b c : α) : cmp a b ≠ .gt → cmp b c ≠ .gt → cmp a c ≠ .gt
  total (a b : α) : cmp a b ≠ .gt ∨ cmp b a ≠ .gt

namespace Generator

variable {a b : List Json}

theorem consistent_compareInputs : Consistent compareInputs where
  refl _ := Std.ReflCmp.compare_self
  swap _ _ := Std.OrientedCmp.eq_swap
  trans _ _ _ h h' := by
    rw [Ne, ← Ordering.isLE_iff_ne_gt] at *
    exact Std.TransCmp.isLE_trans h h'
  total a b := by
    have h := isLE_compareInputs_total a b
    rwa [Bool.or_eq_true, Ordering.isLE_iff_ne_gt, Ordering.isLE_iff_ne_gt] at h

/-- The text is compared last, so nothing else has told the two apart. -/
theorem compact_eq_of_compareInputs_eq (h : compareInputs a b = .eq) : (Json.arr a).compact = (Json.arr b).compact :=
  Std.LawfulEqOrd.eq_of_compare (Ordering.then_eq_eq.mp (Ordering.then_eq_eq.mp h).2).2

theorem eq_of_compareInputs_eq (ha : Json.finiteItems a = true) (hb : Json.finiteItems b = true)
    (h : compareInputs a b = .eq) : a = b :=
  Json.arr.inj (Json.compact_inj ha hb (compact_eq_of_compareInputs_eq h))

end Generator

namespace Property

variable {stop : Bool} {cases cases' : List Case} {found found' : List CounterExample} {e f : CounterExample}

/-! ### Different argument lists -/

/-- Counter-examples on different argument lists. -/
def Different (found : List CounterExample) : Prop :=
  found.Pairwise fun e f => Json.equalItems e.input f.input = false

theorem different_perm (h : found.Perm found') : Different found ↔ Different found' :=
  h.pairwise_iff fun h => (Json.equalItems_comm _ _).trans h

theorem different_cons (hfound : Different found)
    (hnew : (found.any fun f => Json.equalItems f.input e.input) = false) : Different (e :: found) := by
  refine List.pairwise_cons.mpr ⟨fun f hf => ?_, hfound⟩
  rw [Json.equalItems_comm]
  exact Bool.eq_false_iff.mpr (List.any_eq_false.mp hnew f hf)

/-- What is gathered is on different argument lists, if what was found before is. -/
theorem different_gather {trials : Nat} (hfound : Different found) : Different (gather stop trials found cases).2 := by
  induction cases generalizing trials found with
  | nil => exact (different_perm found.reverse_perm).mpr hfound
  | cons c rest ih =>
    rw [gather]
    cases c.failure with
    | none => exact ih hfound
    | some observed =>
      cases hnew : found.any fun f => Json.equalItems f.input c.input with
      | true => exact ih hfound
      | false =>
        have hcons : Different (⟨c.input, observed⟩ :: found) := different_cons hfound hnew
        cases stop with
        | true => exact (different_perm (List.reverse_perm _)).mpr hcons
        | false => exact ih hcons

theorem finite_of_mem_gather {trials : Nat} (hfinite : ∀ c ∈ cases, Json.finiteItems c.input = true)
    (he : e ∈ (gather stop trials [] cases).2) : Json.finiteItems e.input = true := by
  obtain he | ⟨c, hc, hinput, -⟩ := mem_gather he
  · cases he
  · exact hinput ▸ hfinite c hc

/-- Only a counter-example itself is on its argument list. -/
theorem eq_of_input_eq (hdifferent : Different found) (hfinite : ∀ e ∈ found, Json.finiteItems e.input = true)
    (he : e ∈ found) (hf : f ∈ found) (h : e.input = f.input) : e = f := by
  have : Std.Symm fun e f : CounterExample => Json.equalItems e.input f.input = false :=
    ⟨fun _ _ h => (Json.equalItems_comm _ _).trans h⟩
  by_contra hne
  have hsame : Json.equalItems e.input f.input = true := h ▸ Json.equalItems_self e.input (hfinite e he)
  exact absurd (hsame.symm.trans (hdifferent.forall he hf hne)) (by decide)

theorem nodup_of_different (hdifferent : Different found) (hfinite : ∀ e ∈ found, Json.finiteItems e.input = true) :
    found.Nodup := by
  refine hdifferent.imp_of_mem fun {e f} he _ hne heq => ?_
  rw [← heq, Json.equalItems_self e.input (hfinite e he)] at hne
  cases hne

/-! ### What is sorted -/

/-- Of two counter-examples that are gathered, one is later than the other, so there is one way to sort. -/
theorem eq_of_sorted (hdifferent : Different found) (hfinite : ∀ e ∈ found, Json.finiteItems e.input = true)
    (hsorted : found.Pairwise fun e f => e.isLE f = true) (hsorted' : found'.Pairwise fun e f => e.isLE f = true)
    (hperm : found.Perm found') : found = found' := by
  refine List.Perm.eq_of_pairwise (fun e f he hf hef hfe => ?_) hsorted hsorted' hperm
  have hf : f ∈ found := hperm.mem_iff.mpr hf
  have heq : Generator.compareInputs e.input f.input = .eq := Std.OrientedCmp.isLE_antisymm hef hfe
  exact eq_of_input_eq hdifferent hfinite he hf
    (Generator.eq_of_compareInputs_eq (hfinite e he) (hfinite f hf) heq)

theorem smallest_perm (hdifferent : Different found) (hfinite : ∀ e ∈ found, Json.finiteItems e.input = true)
    (hperm : found.Perm found') (limit : Nat) : smallest limit found = smallest limit found' := by
  have hpairwise (l : List CounterExample) :
      (l.mergeSort CounterExample.isLE).Pairwise fun e f => e.isLE f = true :=
    List.pairwise_mergeSort CounterExample.isLE_trans CounterExample.isLE_total l
  have hfound := List.mergeSort_perm found CounterExample.isLE
  have hfound' := List.mergeSort_perm found' CounterExample.isLE
  exact congrArg (List.take limit) <| eq_of_sorted ((different_perm hfound).mpr hdifferent)
    (fun e he => hfinite e (hfound.mem_iff.mp he)) (hpairwise found) (hpairwise found')
    (hfound.trans (hperm.trans hfound'.symm))

theorem smallest_gather_perm (hfinite : ∀ c ∈ cases, Json.finiteItems c.input = true)
    (hperm : (gather stop 0 [] cases).2.Perm (gather stop 0 [] cases').2) (limit : Nat) :
    smallest limit (gather stop 0 [] cases).2 = smallest limit (gather stop 0 [] cases').2 :=
  smallest_perm (different_gather .nil) (fun _ he => finite_of_mem_gather hfinite he) hperm limit

/-- **Sorting sees a consistent order**: argument lists are compared consistently, those that compare equal have one
text, and without odd numbers they are the same. What is shown of the counter-examples of some cases is shown of them in
whatever order they were found. -/
theorem sorting_consistent :
    Consistent Generator.compareInputs ∧
      (∀ a b, Generator.compareInputs a b = .eq → (Json.arr a).compact = (Json.arr b).compact) ∧
      (∀ a b, Json.finiteItems a = true → Json.finiteItems b = true →
        (Generator.compareInputs a b = .eq ↔ a = b)) ∧
      ∀ stop cases cases', (∀ c ∈ cases, Json.finiteItems c.input = true) →
        (gather stop 0 [] cases).2.Perm (gather stop 0 [] cases').2 →
        ∀ limit, smallest limit (gather stop 0 [] cases).2 = smallest limit (gather stop 0 [] cases').2 := by
  refine ⟨Generator.consistent_compareInputs, fun _ _ => Generator.compact_eq_of_compareInputs_eq,
    fun a b ha hb => ⟨Generator.eq_of_compareInputs_eq ha hb, ?_⟩, fun _ _ _ => smallest_gather_perm⟩
  rintro rfl
  exact Generator.consistent_compareInputs.refl a

/-- Two argument lists whose magnitudes add up to infinity, found before smaller ones or after them. Of odd numbers,
different ones can compare equal. -/
theorem sorting_consistent_infinite :
    let huge : Json := .float ⟨0x7FEFFFFFFFFFFFFF⟩
    let low : Json := .float ⟨0xFFE0000000000000⟩
    let nested : List Json := [.arr [.str "é", .obj [("k", low)]], .bool true]
    let odd : Json := .float ⟨0x7FF8000000000000⟩
    let cases : List Case := [⟨[huge, huge], some "a"⟩, ⟨nested, some "b"⟩, ⟨[.null, .float .zero], some "c"⟩,
      ⟨[low, huge], some "d"⟩]
    (Generator.totalWeight [low, huge]).magnitude.isInfinite = true ∧
      (Generator.totalWeight [huge, huge]).magnitude.isInfinite = true ∧
      Generator.compareInputs [low, huge] [huge, huge] ≠ .gt ∧ Generator.compareInputs [huge, huge] nested ≠ .gt ∧
      Generator.compareInputs [low, huge] nested ≠ .gt ∧
      (Json.finiteItems [low, huge] = true ∧ Json.finiteItems [huge, huge] = true ∧
        Generator.compareInputs [low, huge] [huge, huge] ≠ .eq) ∧
      (Generator.compareInputs [odd] [.float ⟨0xFFF8000000000000⟩] = .eq ∧
        (Json.arr [odd]).compact = (Json.arr [.float ⟨0xFFF8000000000000⟩]).compact) ∧
      (∀ c ∈ cases, Json.finiteItems c.input = true) ∧
      (gather false 0 [] cases).2.Perm (gather false 0 [] cases.reverse).2 ∧
      smallest 3 (gather false 0 [] cases).2 = smallest 3 (gather false 0 [] cases.reverse).2 := by
  intro huge low nested odd cases
  obtain ⟨hconsistent, htext, heq, hsmallest⟩ := sorting_consistent
  have hlow : Generator.compareInputs [low, huge] [huge, huge] ≠ .gt := by decide +kernel
  have hhuge : Generator.compareInputs [huge, huge] nested ≠ .gt := by decide +kernel
  have hodd : Generator.compareInputs [odd] [.float ⟨0xFFF8000000000000⟩] = .eq := by decide +kernel
  have hne : [low, huge] ≠ [huge, huge] := fun h => absurd (Json.float.inj (List.cons.inj h).1) (by decide)
  have hfinite : ∀ c ∈ cases, Json.finiteItems c.input = true := by decide
  have hreverse : (gather false 0 [] cases).2 = (gather false 0 [] cases.reverse).2.reverse := rfl
  have hperm : (gather false 0 [] cases).2.Perm (gather false 0 [] cases.reverse).2 :=
    hreverse ▸ List.reverse_perm _
  exact ⟨by decide +kernel, by decide +kernel, hlow, hhuge, hconsistent.trans _ _ _ hlow hhuge,
    ⟨rfl, rfl, fun h => hne ((heq _ _ rfl rfl).mp h)⟩, ⟨hodd, htext _ _ hodd⟩, hfinite, hperm,
    hsmallest _ _ _ hfinite hperm 3⟩

/-! ### Cases in another order -/

/-- Cases that fail on one argument list fail there in one way. -/
def FailAlike (cases : List Case) : Prop :=
  ∀ e ∈ failures cases, ∀ f ∈ failures cases, e.repeats f = true → e = f

theorem failures_perm (h : cases.Perm cases') : (failures cases).Perm (failures cases') := h.filterMap _

theorem mem_distinct_iff (halike : FailAlike cases) : e ∈ distinct cases ↔ e ∈ failures cases := by
  refine ⟨(firsts_distinct cases).mem_of_mem, fun he => ?_⟩
  obtain he' | ⟨f, hf, hrepeats⟩ := (firsts_distinct cases).exists_of_mem he
  · exact he'
  · rw [halike e he f ((firsts_distinct cases).mem_of_mem hf) hrepeats]
    exact hf

theorem FailAlike.perm (halike : FailAlike cases) (h : cases.Perm cases') : FailAlike cases' := fun e he f hf =>
  halike e ((failures_perm h).mem_iff.mpr he) f ((failures_perm h).mem_iff.mpr hf)

theorem different_distinct (cases : List Case) : Different (distinct cases) := (firsts_distinct cases).pairwise

theorem finite_of_mem_distinct (hfinite : ∀ c ∈ cases, Json.finiteItems c.input = true) :
    ∀ e ∈ distinct cases, Json.finiteItems e.input = true := by
  intro e he
  obtain ⟨before, c, after, rfl, hinput, -⟩ := exists_first_case he
  exact hinput ▸ hfinite c (List.mem_append_right _ List.mem_cons_self)

theorem nodup_distinct (hfinite : ∀ c ∈ cases, Json.finiteItems c.input = true) : (distinct cases).Nodup :=
  nodup_of_different (different_distinct cases) (finite_of_mem_distinct hfinite)

theorem distinct_perm (hfinite : ∀ c ∈ cases, Json.finiteItems c.input = true) (halike : FailAlike cases)
    (h : cases.Perm cases') : (distinct cases).Perm (distinct cases') := by
  have hfinite' : ∀ c ∈ cases', Json.finiteItems c.input = true := fun c hc => hfinite c (h.mem_iff.mpr hc)
  refine (List.perm_ext_iff_of_nodup (nodup_distinct hfinite) (nodup_distinct hfinite')).mpr fun e => ?_
  rw [mem_distinct_iff halike, mem_distinct_iff (halike.perm h), (failures_perm h).mem_iff]

/-- **The order of the cases does not matter** where testing does not stop at the first violation, as long as a function
that fails twice on the same arguments fails there in the same way. -/
theorem evaluate_perm {config : PropertyTestConfig} (hstop : config.stopOnFirstViolation = false) (property : String)
    (hfinite : ∀ c ∈ cases, Json.finiteItems c.input = true) (halike : FailAlike cases) (h : cases.Perm cases') :
    evaluate config property cases = evaluate config property cases' := by
  have hgather (cases : List Case) :
      gather config.stopOnFirstViolation 0 [] cases = (cases.length, distinct cases) := hstop ▸ gather_false cases
  have hdistinct := distinct_perm hfinite halike h
  by_cases hne : distinct cases = []
  · have hne' : distinct cases' = [] := List.nil_perm.mp (hne ▸ hdistinct)
    rw [evaluate_of_forall (distinct_eq_nil_iff.mp hne), evaluate_of_forall (distinct_eq_nil_iff.mp hne'), h.length_eq]
  · have hne' : distinct cases' ≠ [] := fun hnil => hne (List.perm_nil.mp (hnil ▸ hdistinct))
    have hsmallest :=
      smallest_perm (different_distinct cases) (finite_of_mem_distinct hfinite) hdistinct config.maxCounterexamples
    rw [evaluate_of_gather (hgather cases) hne, evaluate_of_gather (hgather cases') hne', hsmallest, h.length_eq]

end Property

end Vetting
