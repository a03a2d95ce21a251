import Mathlib.Order.Compare
import Vetting.Proofs.Json.Distinct
import Vetting.Proofs.Property.Evidence

/-!
# The smallest counter-examples

Without a stop at the first violation, all failing cases are gathered, one for each argument list (`Property.distinct`),
then sorted, then cut. Since the order of argument lists is a total preorder and sorting is stable, what is shown is a
beginning of the sorted list: `Property.ShowsSmallest`.

* `Property.evaluate_smallest`: the result of any cases.
-/

namespace Vetting

/-! ### The order of argument lists -/

namespace Generator

theorem compareInputs_eq : compareInputs = compareLex (compareOn fun x => (totalWeight x).size)
    (compareLex (fun a b => (totalWeight a).magnitude.totalCompare (totalWeight b).magnitude)
      (compareOn fun x => (Json.arr x).compact)) := rfl

instance : Std.TransCmp compareInputs := by
  have : Std.TransCmp fun a b : List Json => (totalWeight a).magnitude.totalCompare (totalWeight b).magnitude :=
    inferInstanceAs (Std.TransCmp (compareOn fun x => (totalWeight x).magnitude.totalRank))
  rw [compareInputs_eq]
  infer_instance

theorem isLE_compareInputs_total (a b : List Json) :
    ((compareInputs a b).isLE || (compareInputs b a).isLE) = true := by
  have hswap : compareInputs b a = (compareInputs a b).swap := Std.OrientedCmp.eq_swap
  rw [hswap]
  cases compareInputs a b <;> rfl

end Generator

/-! ### Distinct counter-examples -/

/-- Whether a counter-example is on the argument list of another one. -/
def CounterExample.repeats (e f : CounterExample) : Bool := Json.equalItems f.input e.input

theorem CounterExample.repeats_trans (e f g : CounterExample) (h : e.repeats f = true) (h' : f.repeats g = true) :
    e.repeats g = true := Json.equalItems_trans _ _ _ h' h

/-- Not later than another one when sorted. -/
def CounterExample.isLE (e f : CounterExample) : Bool := (Generator.compareInputs e.input f.input).isLE

theorem CounterExample.isLE_trans (e f g : CounterExample) (h : e.isLE f = true) (h' : f.isLE g = true) :
    e.isLE g = true := Std.TransCmp.isLE_trans h h'

theorem CounterExample.isLE_total (e f : CounterExample) : (e.isLE f || f.isLE e) = true :=
  Generator.isLE_compareInputs_total _ _

namespace Property

variable {cases : List Case} {found : List CounterExample} {e : CounterExample}

/-- What cases have against a property, one counter-example for each case that fails. -/
def failures (cases : List Case) : List CounterExample :=
  cases.filterMap fun c => c.failure.map fun observed => ⟨c.input, observed⟩

/-- The failures without those on an argument list that has failed before. -/
def distinct (cases : List Case) : List CounterExample := (failures cases).eraseDupsBy CounterExample.repeats

theorem failures_cons (c : Case) (rest : List Case) :
    failures (c :: rest) = match c.failure with
      | none => failures rest
      | some observed => ⟨c.input, observed⟩ :: failures rest := by
  rw [failures, List.filterMap_cons]
  cases c.failure <;> rfl

theorem failures_eq_nil_iff : failures cases = [] ↔ ∀ c ∈ cases, c.failure = none := by
  simp [failures]

theorem gather_false_snd {trials : Nat} :
    (gather false trials found cases).2 = List.eraseDupsBy.loop CounterExample.repeats (failures cases) found := by
  induction cases generalizing trials found with
  | nil => rfl
  | cons c rest ih =>
    rw [failures_cons, gather]
    cases c.failure with
    | none => exact ih
    | some observed =>
      simp only [Bool.false_eq_true, if_false]
      have hrepeats : found.any (CounterExample.repeats ⟨c.input, observed⟩) =
          found.any fun e => Json.equalItems e.input c.input := rfl
      rw [List.eraseDupsBy.loop, hrepeats]
      cases found.any fun e => Json.equalItems e.input c.input with
      | true => exact ih
      | false => exact ih

/-- All distinct counter-examples are gathered, in the order in which they were found. -/
theorem gather_false (cases : List Case) : gather false 0 [] cases = (cases.length, distinct cases) :=
  Prod.ext (gather_false_fst.trans (Nat.zero_add _)) gather_false_snd

theorem firsts_distinct (cases : List Case) : Firsts CounterExample.repeats (failures cases) (distinct cases) :=
  firsts_eraseDupsBy _ _

theorem distinct_eq_nil_iff : distinct cases = [] ↔ ∀ c ∈ cases, c.failure = none :=
  (firsts_distinct cases).eq_nil_iff.trans failures_eq_nil_iff

/-- A distinct counter-example is what was seen in the first case that fails on its argument list. -/
theorem exists_first_case (h : e ∈ distinct cases) :
    ∃ before c after, cases = before ++ c :: after ∧ c.input = e.input ∧ c.failure = some e.observed ∧
      ∀ b ∈ before, b.failure.isSome = true → Json.equalItems b.input e.input = false := by
  obtain ⟨early, late, hsplit, hearly⟩ := (firsts_distinct cases).first CounterExample.repeats_trans h
  obtain ⟨front, back, rfl, rfl, hback⟩ := List.filterMap_eq_append_iff.mp hsplit
  obtain ⟨passed, c, after, rfl, hpassed, hc, -⟩ := List.filterMap_eq_cons_iff.mp hback
  obtain ⟨observed, hfailure, rfl⟩ := Option.map_eq_some_iff.mp hc
  refine ⟨front ++ passed, c, after, by simp, rfl, hfailure, fun b hb hfailed => ?_⟩
  obtain ⟨seen, hseen⟩ := Option.isSome_iff_exists.mp hfailed
  obtain hb | hb := List.mem_append.mp hb
  · exact hearly ⟨b.input, seen⟩ (List.mem_filterMap.mpr ⟨b, hb, by rw [hseen]; rfl⟩)
  · have hnone := hpassed b hb
    rw [hseen] at hnone
    cases hnone

/-! ### What is shown -/

/-- A result that shows the smallest distinct counter-examples of some cases, as many as the limit says: they are a
beginning of all distinct ones when sorted, where those that compare equal stay in the order in which they were found. -/
structure ShowsSmallest (limit : Nat) (cases : List Case) (r : PropertyResult) : Prop where
  violated : r.outcome = .violated
  smallest : ∃ sorted, sorted.Perm (distinct cases) ∧
    sorted.Pairwise (fun e f => Generator.compareInputs e.input f.input ≠ .gt) ∧
    (∀ e f, [e, f].Sublist (distinct cases) → Generator.compareInputs e.input f.input = .eq → [e, f].Sublist sorted) ∧
    r.counterExamples = sorted.take limit
  length_eq : r.counterExamples.length = min limit (distinct cases).length
  ne_nil : r.counterExamples ≠ []
  different : r.counterExamples.Pairwise fun e f => Json.equalItems e.input f.input = false
  ordered : r.counterExamples.Pairwise fun e f => Generator.compareInputs e.input f.input ≠ .gt
  omitted : ∀ f ∈ distinct cases, f ∉ r.counterExamples →
    ∀ e ∈ r.counterExamples, Generator.compareInputs e.input f.input ≠ .gt
  head : ∃ e rest, r.counterExamples = e :: rest ∧ r.counterExample = some e.input ∧ r.detail = some e.observed
  first : ∀ e ∈ r.counterExamples, ∃ before c after, cases = before ++ c :: after ∧ c.input = e.input ∧
    c.failure = some e.observed ∧ ∀ b ∈ before, b.failure.isSome = true → Json.equalItems b.input e.input = false

theorem ne_gt_of_isLE {e f : CounterExample} (h : e.isLE f = true) :
    Generator.compareInputs e.input f.input ≠ .gt := by
  intro hgt
  rw [CounterExample.isLE, hgt] at h
  cases h

theorem showsSmallest_violated {limit : Nat} (hlimit : 1 ≤ limit) (property : String) (trials : Nat)
    (hne : distinct cases ≠ []) :
    ShowsSmallest limit cases (.violated property trials (smallest limit (distinct cases))) := by
  have hperm : ((distinct cases).mergeSort CounterExample.isLE).Perm (distinct cases) := List.mergeSort_perm _ _
  have hsorted := (List.pairwise_mergeSort CounterExample.isLE_trans CounterExample.isLE_total (distinct cases)).imp
    ne_gt_of_isLE
  have hdifferent : ((distinct cases).mergeSort CounterExample.isLE).Pairwise
      fun e f => Json.equalItems e.input f.input = false :=
    (hperm.pairwise_iff fun h => (Json.equalItems_comm _ _).trans h).mpr (firsts_distinct cases).pairwise
  have hshown : ∀ e ∈ smallest limit (distinct cases), e ∈ distinct cases := fun e he => mem_of_mem_smallest he
  refine ⟨rfl, ⟨_, hperm, hsorted, fun e f hpair heq => ?_, rfl⟩, ?_, smallest_ne_nil hlimit hne,
    hdifferent.sublist (List.take_sublist _ _), hsorted.sublist (List.take_sublist _ _), fun f hf hnot e he => ?_, ?_,
    fun e he => exists_first_case (hshown e he)⟩
  · have hle : e.isLE f = true := by
      rw [CounterExample.isLE, heq]
      rfl
    exact List.pair_sublist_mergeSort CounterExample.isLE_trans CounterExample.isLE_total hle hpair
  · change (((distinct cases).mergeSort CounterExample.isLE).take limit).length = _
    rw [List.length_take, List.length_mergeSort]
  · -- What is not in the beginning of the sorted list is behind it.
    rw [← List.take_append_drop limit ((distinct cases).mergeSort CounterExample.isLE)] at hsorted
    obtain hfront | hback := List.mem_append.mp
      ((List.take_append_drop limit ((distinct cases).mergeSort CounterExample.isLE)).symm ▸ hperm.mem_iff.mpr hf)
    · exact absurd hfront hnot
    · exact (List.pairwise_append.mp hsorted).2.2 e he f hback
  · cases hlist : smallest limit (distinct cases) with
    | nil => exact absurd hlist (smallest_ne_nil hlimit hne)
    | cons e rest => exact ⟨e, rest, rfl, rfl, rfl⟩

theorem showsSmallest_evaluate {config : PropertyTestConfig} (hstop : config.stopOnFirstViolation = false)
    (hmax : 1 ≤ config.maxCounterexamples) (property : String) (hfailed : ∃ c ∈ cases, c.failure ≠ none) :
    ShowsSmallest config.maxCounterexamples cases (evaluate config property cases) := by
  have hgather : gather config.stopOnFirstViolation 0 [] cases = (cases.length, distinct cases) := by
    rw [hstop]
    exact gather_false cases
  have hne : distinct cases ≠ [] := by
    intro hnil
    obtain ⟨c, hc, hfailure⟩ := hfailed
    exact hfailure (distinct_eq_nil_iff.mp hnil c hc)
  rw [evaluate_of_gather hgather hne]
  exact showsSmallest_violated hmax property cases.length hne

/-- **The smallest counter-examples**: where testing does not stop at the first violation, a property holds if and only
if no case fails, and otherwise is violated, with the smallest distinct counter-examples. -/
theorem evaluate_smallest {config : PropertyTestConfig} (hstop : config.stopOnFirstViolation = false)
    (hmax : 1 ≤ config.maxCounterexamples) (property : String) (cases : List Case) :
    ((evaluate config property cases).outcome = .holds ↔ ∀ c ∈ cases, c.failure = none) ∧
      ((∃ c ∈ cases, c.failure ≠ none) →
        ShowsSmallest config.maxCounterexamples cases (evaluate config property cases)) := by
  refine ⟨⟨fun hholds c hc => ?_, fun hnone => ?_⟩, showsSmallest_evaluate hstop hmax property⟩
  · by_contra hfailed
    have hviolated := (showsSmallest_evaluate hstop hmax property ⟨c, hc, hfailed⟩).violated
    rw [hholds] at hviolated
    cases hviolated
  · rw [evaluate_of_forall hnone]
    rfl

/-- Three argument lists fail, one of them twice, and two are shown. -/
theorem evaluate_smallest_repeated :
    let config : PropertyTestConfig := { stopOnFirstViolation := false, maxCounterexamples := 2 }
    let cases : List Case := [⟨[.int 7], some "a"⟩, ⟨[.int (-3)], some "b"⟩, ⟨[.int 1], none⟩, ⟨[.int (-3)], some "c"⟩,
      ⟨[.int 2], some "d"⟩]
    config.stopOnFirstViolation = false ∧ 1 ≤ config.maxCounterexamples ∧ (∃ c ∈ cases, c.failure ≠ none) ∧
      ShowsSmallest config.maxCounterexamples cases (evaluate config "p" cases) ∧
      (distinct cases).length = 3 ∧ (evaluate config "p" cases).counterExamples.length = 2 := by
  intro config cases
  have hfailed : ∃ c ∈ cases, c.failure ≠ none := ⟨_, List.mem_cons_self, by decide⟩
  have hstop : config.stopOnFirstViolation = false := rfl
  have hshows := (evaluate_smallest hstop (by decide) "p" cases).2 hfailed
  have hdistinct : (distinct cases).length = 3 := by decide +kernel
  refine ⟨hstop, by decide, hfailed, hshows, hdistinct, ?_⟩
  rw [hshows.length_eq, hdistinct]
  rfl

end Property

end Vetting
