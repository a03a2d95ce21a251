import Vetting.Proofs.Json.Finite
import Vetting.Proofs.Property.Campaign

/-!
# The verdicts of a campaign

A sandbox in which the target computes a function of its arguments (`Sandbox.Computes`) answers both batches of a
campaign, and the answers determine its results. `Tester.campaign_judged` says that they are right: a property is
found violated exactly where one of the argument lists falsifies it, and only such argument lists are shown.

* `Session.Yields`: a session that a sandbox brings to an end of a kind; the rule for `>>=` follows the batches.
* `PropertyResult.Decides`: a result that is sound and complete for a property over some argument lists.
* `Property.decides_evaluate`: the results of `evaluate` are, whatever the cases.
-/

namespace Vetting

/-! ### Sessions that come to an end -/

namespace Session

/-- All runs of a session end, and so does the session, in ends of a kind, whatever was asked before. -/
inductive Yields (sandbox : Sandbox) (P : α → Prop) : Session α → Prop
  | finish : P a → Yields sandbox P (.finish a)
  | run : (∀ earlier, (sandbox earlier request).delay.isSome = true) →
      (∀ earlier, Yields sandbox P (next (sandbox earlier request).result)) →
      Yields sandbox P (.run request next)

variable {sandbox : Sandbox} {P : α → Prop} {Q : β → Prop}

theorem Yields.bind {s : Session α} {f : α → Session β} (h : s.Yields sandbox P)
    (hf : ∀ a, P a → (f a).Yields sandbox Q) : (s >>= f).Yields sandbox Q := by
  induction h with
  | finish ha => exact hf _ ha
  | run hdelay _ ih => exact .run hdelay ih

theorem Yields.mono {Q : α → Prop} {s : Session α} (h : s.Yields sandbox P) (hPQ : ∀ a, P a → Q a) :
    s.Yields sandbox Q := by
  induction h with
  | finish ha => exact .finish (hPQ _ ha)
  | run hdelay _ ih => exact .run hdelay ih

theorem Yields.exists_play {s : Session α} (h : s.Yields sandbox P) (log : Log) :
    ∃ a log', s.play sandbox none log = (.finished a, log') ∧ P a := by
  induction h generalizing log with
  | finish ha => exact ⟨_, log, rfl, ha⟩
  | @run request next hdelay _ ih =>
    obtain ⟨delay, hd⟩ := Option.isSome_iff_exists.mp (hdelay log.requests)
    obtain ⟨a, log', hp, ha⟩ := ih log.requests ⟨request :: log.requests,
      (sandbox log.requests request).result :: log.results, log.elapsed.saturatingAdd delay⟩
    refine ⟨a, log', ?_, ha⟩
    simp only [play, hd]
    exact hp

end Session

/-! ### Results that are right -/

namespace PropertyResult

/-- A result that finds a property violated if and only if some of the argument lists falsify it, and that shows one
of these then and no others ever. -/
structure Decides (r : PropertyResult) (name : String) (falsifies : List Json → Prop) (inputs : List (List Json)) :
    Prop where
  property : r.property = name
  violated_iff : r.outcome = .violated ↔ ∃ x ∈ inputs, falsifies x
  holds_iff : r.outcome = .holds ↔ ∀ x ∈ inputs, ¬ falsifies x
  falsified : ∀ e ∈ r.counterExamples, e.input ∈ inputs ∧ falsifies e.input
  shown : r.outcome = .violated → r.counterExamples ≠ []
  counterExample_eq : r.counterExample = r.counterExamples.head?.map (·.input)

/-- A result that skips a property which does not apply, and decides one which does. -/
structure DecidesIf (r : PropertyResult) (applies : Prop) (name : String) (falsifies : List Json → Prop)
    (inputs : List (List Json)) : Prop where
  skipped : ¬ applies → ∃ reason, r = .skipped name reason
  decides : applies → r.Decides name falsifies inputs

variable {name : String} {falsifies : List Json → Prop} {inputs : List (List Json)}

theorem decides_holds (n : Nat) (h : ∀ x ∈ inputs, ¬ falsifies x) : (holds name n).Decides name falsifies inputs where
  property := rfl
  violated_iff := ⟨nofun, fun ⟨x, hx, hf⟩ => absurd hf (h x hx)⟩
  holds_iff := ⟨fun _ => h, fun _ => rfl⟩
  falsified := List.forall_mem_nil _
  shown := nofun
  counterExample_eq := rfl

theorem decides_violated (n : Nat) {found : List CounterExample} (hne : found ≠ [])
    (h : ∀ e ∈ found, e.input ∈ inputs ∧ falsifies e.input) :
    (violated name n found).Decides name falsifies inputs where
  property := rfl
  violated_iff := by
    obtain ⟨e, he⟩ := List.exists_mem_of_ne_nil _ hne
    exact ⟨fun _ => ⟨e.input, h e he⟩, fun _ => rfl⟩
  holds_iff := by
    obtain ⟨e, he⟩ := List.exists_mem_of_ne_nil _ hne
    exact ⟨nofun, fun hn => absurd (h e he).2 (hn e.input (h e he).1)⟩
  falsified := h
  shown _ := hne
  counterExample_eq := rfl

end PropertyResult

/-! ### Evaluation -/

namespace Property

variable {stopAtFirst : Bool} {trials : Nat} {found : List CounterExample} {cases : List Case}

theorem gather_of_forall (h : ∀ c ∈ cases, c.failure = none) :
    gather stopAtFirst trials found cases = (trials + cases.length, found.reverse) := by
  induction cases generalizing trials with
  | nil => rfl
  | cons c rest ih =>
    obtain ⟨hc, hrest⟩ := List.forall_mem_cons.mp h
    rw [gather, hc]
    simp only
    rw [ih hrest, List.length_cons, Nat.add_right_comm, Nat.add_assoc]

/-- What is gathered comes from cases that fail. -/
theorem mem_gather {e : CounterExample} (h : e ∈ (gather stopAtFirst trials found cases).2) :
    e ∈ found ∨ ∃ c ∈ cases, c.input = e.input ∧ c.failure = some e.observed := by
  induction cases generalizing trials found with
  | nil => exact .inl (List.mem_reverse.mp h)
  | cons c rest ih =>
    have hlater (h : ∃ c' ∈ rest, c'.input = e.input ∧ c'.failure = some e.observed) :
        ∃ c' ∈ c :: rest, c'.input = e.input ∧ c'.failure = some e.observed := by
      obtain ⟨c', hc', hfailed⟩ := h
      exact ⟨c', List.mem_cons_of_mem _ hc', hfailed⟩
    rw [gather] at h
    split at h
    · exact (ih h).imp_right hlater
    · rename_i observed hobserved
      have hnew (h : e ∈ (⟨c.input, observed⟩ : CounterExample) :: found) :
          e ∈ found ∨ ∃ c' ∈ c :: rest, c'.input = e.input ∧ c'.failure = some e.observed := by
        obtain rfl | h := List.mem_cons.mp h
        · exact .inr ⟨c, List.mem_cons_self, rfl, hobserved⟩
        · exact .inl h
      split at h
      · exact (ih h).imp_right hlater
      · split at h
        · exact hnew (List.mem_reverse.mp h)
        · exact (ih h).elim hnew fun h => .inr (hlater h)

/-- Nothing that was found is lost again, and a case that fails is not passed over in silence. -/
theorem gather_ne_nil (h : found ≠ [] ∨ ∃ c ∈ cases, c.failure.isSome = true) :
    (gather stopAtFirst trials found cases).2 ≠ [] := by
  induction cases generalizing trials found with
  | nil => simpa [gather] using h
  | cons c rest ih =>
    rw [gather]
    split
    · rename_i hnone
      refine ih (h.imp_right fun ⟨c', hc', hfailed⟩ => ⟨c', ?_, hfailed⟩)
      obtain rfl | hc' := List.mem_cons.mp hc'
      · rw [hnone] at hfailed
        cases hfailed
      · exact hc'
    · split
      · rename_i hany
        refine ih (.inl fun hn => ?_)
        rw [hn] at hany
        cases hany
      · split
        · exact List.reverse_ne_nil_iff.mpr (List.cons_ne_nil _ _)
        · exact ih (.inl (List.cons_ne_nil _ _))

theorem smallest_ne_nil {limit : Nat} (hlimit : 1 ≤ limit) (h : found ≠ []) : smallest limit found ≠ [] := by
  have hlength : 0 < found.length := List.length_pos_iff.mpr h
  refine List.length_pos_iff.mp ?_
  rw [smallest, List.length_take, List.length_mergeSort]
  omega

theorem mem_of_mem_smallest {limit : Nat} {e : CounterExample} (h : e ∈ smallest limit found) : e ∈ found :=
  List.mem_mergeSort.mp (List.mem_of_mem_take h)

variable {config : PropertyTestConfig} {name : String} {falsifies : List Json → Prop} {inputs : List (List Json)}

theorem evaluate_of_forall (h : ∀ c ∈ cases, c.failure = none) :
    evaluate config name cases = .holds name cases.length := by
  rw [evaluate, gather_of_forall h, List.reverse_nil, Nat.zero_add]

/-- The result of some cases is right about every property that the cases which fail falsify, and that no argument
list falsifies unless a case fails. -/
theorem decides_evaluate (hmax : 1 ≤ config.maxCounterexamples)
    (hsound : ∀ c ∈ cases, c.failure.isSome = true → c.input ∈ inputs ∧ falsifies c.input)
    (hcomplete : ∀ x ∈ inputs, falsifies x → ∃ c ∈ cases, c.failure.isSome = true) :
    (evaluate config name cases).Decides name falsifies inputs := by
  by_cases hfailed : ∃ c ∈ cases, c.failure.isSome = true
  · have hne : (gather config.stopOnFirstViolation 0 [] cases).2 ≠ [] := gather_ne_nil (.inr hfailed)
    unfold evaluate
    split
    · rename_i hg
      rw [hg] at hne
      exact absurd rfl hne
    · rename_i found _ hg
      rw [hg] at hne
      refine PropertyResult.decides_violated _ (smallest_ne_nil hmax hne) fun e he => ?_
      have hmem : e ∈ (gather config.stopOnFirstViolation 0 [] cases).2 := by
        rw [hg]
        exact mem_of_mem_smallest he
      obtain hnil | ⟨c, hc, hinput, hobserved⟩ := mem_gather hmem
      · cases hnil
      · exact hinput ▸ hsound c hc (Option.isSome_of_mem hobserved)
  · have hnone : ∀ c ∈ cases, c.failure = none := fun c hc =>
      Option.not_isSome_iff_eq_none.mp fun hs => hfailed ⟨c, hc, hs⟩
    rw [evaluate_of_forall hnone]
    exact PropertyResult.decides_holds _ fun x hx hf => hfailed (hcomplete x hx hf)

end Property

/-! ### Sandboxes that compute a function -/

/-- In a sandbox a target computes a function of its arguments: every batch is completed, with the outcome of the
function for each argument list, and a returned value is one that a document can hold. -/
structure Sandbox.Computes (sandbox : Sandbox) (target : Target) (f : List Json → CallOutcome) : Prop where
  ends : ∀ earlier inputs, (sandbox earlier (Tester.batchRequest target inputs)).delay.isSome = true
  usable : ∀ earlier inputs, (sandbox earlier (Tester.batchRequest target inputs)).result.isUsable = true
  found : ∀ earlier inputs, (sandbox earlier (Tester.batchRequest target inputs)).result.entryPointFound = some true
  calls : ∀ earlier inputs, (sandbox earlier (Tester.batchRequest target inputs)).result.calls = inputs.map f
  finite : ∀ x v, f x = .returned v → v.finite = true

/-- The sandbox in which every target computes the same function. -/
def Sandbox.computing (f : List Json → CallOutcome) : Sandbox := fun _ request =>
  { result := { RunResult.aborted .subprocess .ok ⟨"", "", none⟩ .zero with
      exception := none
      entryPointFound := some true
      calls := request.inputs.map f }
    delay := some .zero }

theorem Sandbox.computes_computing {f : List Json → CallOutcome} (h : ∀ x v, f x = .returned v → v.finite = true)
    (target : Target) : (computing f).Computes target f where
  ends _ _ := rfl
  usable _ _ := rfl
  found _ _ := rfl
  calls _ _ := rfl
  finite := h

theorem CallOutcome.value?_eq_some_iff {o : CallOutcome} {v : Json} : o.value? = some v ↔ o = .returned v := by
  cases o with
  | returned w => simp [value?]
  | raised type message => simp [value?]

theorem CallOutcome.agrees_self {o : CallOutcome} (h : ∀ v, o = .returned v → v.finite = true) :
    o.agrees o = true := by
  cases o with
  | returned v => exact Json.beq_self (h v rfl)
  | raised type message => exact beq_self_eq_true type

/-- What two calls of a function come to. -/
def Trial.repeated (f : List Json → CallOutcome) (x : List Json) : Trial := ⟨x, f x, f x⟩

namespace Tester

variable {t : Tester} {target : Target} {sandbox : Sandbox} {f : List Json → CallOutcome}
  {inputs : List (List Json)}

/-! ### The batches -/

theorem runBatch_yields (h : sandbox.Computes target f) (inputs : List (List Json)) (u : BatchUsage) :
    (runBatch target inputs u).Yields sandbox (·.1 = .ok (inputs.map f)) := by
  refine .run (fun earlier => h.ends earlier inputs) fun earlier => .finish ?_
  simp [completeCalls, h.usable, h.found, h.calls]

/-- The doubled batch is taken apart as it was put together. -/
theorem pairCalls_map (f : List Json → CallOutcome) (inputs : List (List Json)) :
    pairCalls inputs ((inputs.flatMap fun x => [x, x]).map f) = inputs.map (Trial.repeated f) := by
  induction inputs with
  | nil => rfl
  | cons x rest ih =>
    simp only [List.flatMap_cons, List.map_cons, List.cons_append, List.nil_append, pairCalls, ih, Trial.repeated]

theorem mem_returns_iff {r : Return} :
    r ∈ returns (inputs.map (Trial.repeated f)) ↔
      r.trial = .repeated f r.trial.input ∧ r.trial.input ∈ inputs ∧ f r.trial.input = .returned r.value := by
  simp only [returns, List.mem_filterMap, List.mem_map, Option.map_eq_some_iff, CallOutcome.value?_eq_some_iff]
  constructor
  · rintro ⟨_, ⟨x, hx, rfl⟩, v, hv, rfl⟩
    exact ⟨rfl, hx, hv⟩
  · rintro ⟨ht, hx, hv⟩
    exact ⟨r.trial, ⟨r.trial.input, hx, ht.symm⟩, r.value, by rw [ht]; exact hv, rfl⟩

/-- A value is returned for some argument list. -/
theorem returns_ne_nil_iff :
    returns (inputs.map (Trial.repeated f)) ≠ [] ↔ ∃ x ∈ inputs, ∃ v, f x = .returned v := by
  constructor
  · intro h
    obtain ⟨r, hr⟩ := List.exists_mem_of_ne_nil _ h
    obtain ⟨-, hx, hv⟩ := mem_returns_iff.mp hr
    exact ⟨_, hx, _, hv⟩
  · rintro ⟨x, hx, v, hv⟩
    exact List.ne_nil_of_mem (mem_returns_iff (r := ⟨.repeated f x, v⟩).mpr ⟨rfl, hx, hv⟩)

end Tester

/-! ### The properties -/

namespace Property

open Tester

variable {config : PropertyTestConfig} {f : List Json → CallOutcome} {inputs : List (List Json)}

theorem decides_checkNoException (hmax : 1 ≤ config.maxCounterexamples) :
    (checkNoException config (inputs.map (Trial.repeated f))).Decides noException
      (fun x => ∃ type message, f x = .raised type message) inputs := by
  have hcase (x : List Json) : (exceptionCase (.repeated f x)).failure.isSome = true ↔
      ∃ type message, f x = .raised type message := by
    simp only [exceptionCase, Trial.repeated]
    cases f x <;> simp
  rw [checkNoException, List.map_map]
  refine decides_evaluate hmax (List.forall_mem_map.mpr fun x hx h => ⟨hx, (hcase x).mp h⟩) fun x hx h => ?_
  exact ⟨_, List.mem_map_of_mem hx, (hcase x).mpr h⟩

theorem checkDeterminism_repeated (h : ∀ x v, f x = .returned v → v.finite = true) :
    checkDeterminism config (inputs.map (Trial.repeated f)) = .holds determinism inputs.length := by
  have hcase (x : List Json) : (determinismCase (.repeated f x)).failure = none :=
    if_pos (CallOutcome.agrees_self (h x))
  have hnone : ∀ c ∈ (inputs.map (Trial.repeated f)).map determinismCase, c.failure = none := by
    rw [List.map_map]
    exact List.forall_mem_map.mpr fun x _ => hcase x
  rw [checkDeterminism, evaluate_of_forall hnone, List.length_map, List.length_map]

/-- The case of a returned value, for a predicate that does not crash. -/
def predicateCase (p : Predicate) (r : Return) : Case :=
  ⟨r.trial.input, if p.judge r.trial.input r.value = .rejects then
    some ("predicate rejected output " ++ r.value.compact) else none⟩

theorem predicateCases_eq {p : Predicate} (h : ∀ x v, p.judge x v ≠ .crashes) (seen : List Case)
    (trials : List Trial) :
    predicateCases p seen trials = .ok (seen.reverse ++ (returns trials).map (predicateCase p)) := by
  induction trials generalizing seen with
  | nil => simp [predicateCases, returns]
  | cons t rest ih =>
    rw [predicateCases]
    cases hv : t.first.value? with
    | none => rw [ih, returns, returns, List.filterMap_cons_none (by rw [hv]; rfl)]
    | some v =>
      have hreturns : returns (t :: rest) = ⟨t, v⟩ :: returns rest := by
        rw [returns, List.filterMap_cons_some (by rw [hv]; rfl), returns]
      simp only [hreturns]
      cases hj : p.judge t.input v with
      | accepts => simp [ih, predicateCase, hj]
      | rejects => simp [ih, predicateCase, hj]
      | crashes => exact absurd hj (h _ _)

theorem decidesIf_checkPredicate {p : Predicate} (hmax : 1 ≤ config.maxCounterexamples)
    (hp : ∀ x v, p.judge x v ≠ .crashes) :
    (checkPredicate config (inputs.map (Trial.repeated f)) p).DecidesIf (∃ x ∈ inputs, ∃ v, f x = .returned v) p.name
      (fun x => ∃ v, f x = .returned v ∧ p.judge x v = .rejects) inputs := by
  have hcase (r : Return) : (predicateCase p r).failure.isSome = true ↔ p.judge r.trial.input r.value = .rejects := by
    by_cases hj : p.judge r.trial.input r.value = .rejects <;> simp [predicateCase, hj]
  rw [← returns_ne_nil_iff, checkPredicate, predicateCases_eq hp, List.reverse_nil, List.nil_append]
  constructor
  · intro hn
    rw [Classical.not_not.mp hn]
    exact ⟨_, rfl⟩
  · intro hne
    split
    · rename_i h
      cases h
    · rename_i h
      exact absurd (List.map_eq_nil_iff.mp (Except.ok.inj h)) hne
    · rename_i cases _ h
      cases h
      refine decides_evaluate hmax (List.forall_mem_map.mpr fun r hr h => ?_) fun x hx hf => ?_
      · obtain ⟨-, hx, hv⟩ := mem_returns_iff.mp hr
        exact ⟨hx, _, hv, (hcase r).mp h⟩
      · obtain ⟨v, hv, hj⟩ := hf
        have hr : (⟨.repeated f x, v⟩ : Return) ∈ returns (inputs.map (Trial.repeated f)) :=
          mem_returns_iff.mpr ⟨rfl, hx, hv⟩
        exact ⟨_, List.mem_map_of_mem hr, (hcase _).mpr hj⟩

/-- The function changes a value of a type that it has itself returned. -/
def Unstable (param : ParamType) (f : List Json → CallOutcome) (x : List Json) : Prop :=
  ∃ v, f x = .returned v ∧ param.accepts v = true ∧ (f [v]).agrees (.returned v) = false

theorem isSome_failure_idempotenceCase_iff {x : List Json} {once : Json} {twice : CallOutcome} :
    (idempotenceCase x once twice).failure.isSome = true ↔ twice.agrees (.returned once) = false := by
  cases twice with
  | returned v => by_cases h : (v == once) = true <;> simp [idempotenceCase, CallOutcome.agrees, h]
  | raised type message => simp [idempotenceCase, CallOutcome.agrees]

end Property

namespace Tester

variable {t : Tester} {target : Target} {sandbox : Sandbox} {f : List Json → CallOutcome}
  {inputs : List (List Json)} {param : ParamType} {declared : Option String}

/-- What a function returns can be fed back into it: its result is declared to be of the type of its argument or else
all that it returns is, and it does return something of that type. -/
structure Reapplies (param : ParamType) (declared : Option String) (f : List Json → CallOutcome)
    (inputs : List (List Json)) : Prop where
  annotated : ∀ hint, declared = some hint → ParamType.ofText? hint = some param
  unannotated : declared = none → ∀ x ∈ inputs, ∀ v, f x = .returned v → param.accepts v = true
  returned : ∃ x ∈ inputs, ∃ v, f x = .returned v ∧ param.accepts v = true

theorem typeMismatch?_eq_none_iff :
    typeMismatch? param declared (returns (inputs.map (Trial.repeated f))) = none ↔
      (∀ hint, declared = some hint → ParamType.ofText? hint = some param) ∧
        (declared = none → ∀ x ∈ inputs, ∀ v, f x = .returned v → param.accepts v = true) := by
  cases declared with
  | some hint => simp [typeMismatch?]
  | none =>
    simp only [typeMismatch?, Option.map_eq_none_iff, List.find?_eq_none, Bool.not_eq_true', Bool.not_eq_false]
    constructor
    · intro h
      exact ⟨nofun, fun _ x hx v hv => h _ (mem_returns_iff (r := ⟨.repeated f x, v⟩).mpr ⟨rfl, hx, hv⟩)⟩
    · intro h r hr
      obtain ⟨-, hx, hv⟩ := mem_returns_iff.mp hr
      exact h.2 trivial _ hx _ hv

/-- The returned values that are fed back in. -/
theorem mem_eligible_iff {r : Return} :
    r ∈ (returns (inputs.map (Trial.repeated f))).filter (fun r => param.accepts r.value) ↔
      r.trial = .repeated f r.trial.input ∧ r.trial.input ∈ inputs ∧ f r.trial.input = .returned r.value ∧
        param.accepts r.value = true := by
  rw [List.mem_filter, mem_returns_iff, and_assoc, and_assoc]

theorem eligible_ne_nil_iff :
    (returns (inputs.map (Trial.repeated f))).filter (fun r => param.accepts r.value) ≠ [] ↔
      ∃ x ∈ inputs, ∃ v, f x = .returned v ∧ param.accepts v = true := by
  constructor
  · intro h
    obtain ⟨r, hr⟩ := List.exists_mem_of_ne_nil _ h
    obtain ⟨-, hx, hv, ha⟩ := mem_eligible_iff.mp hr
    exact ⟨_, hx, _, hv, ha⟩
  · rintro ⟨x, hx, v, hv, ha⟩
    exact List.ne_nil_of_mem (mem_eligible_iff (r := ⟨.repeated f x, v⟩).mpr ⟨rfl, hx, hv, ha⟩)

/-- The second batch decides whether the function changes what it has returned. -/
theorem decides_idempotence {config : PropertyTestConfig} (hmax : 1 ≤ config.maxCounterexamples) :
    (Property.evaluate config Property.idempotence
      (((returns (inputs.map (Trial.repeated f))).filter fun r => param.accepts r.value).map fun r =>
        Property.idempotenceCase r.trial.input r.value (f [r.value]))).Decides Property.idempotence
      (Property.Unstable param f) inputs := by
  refine Property.decides_evaluate hmax (List.forall_mem_map.mpr fun r hr h => ?_) fun x hx hf => ?_
  · obtain ⟨-, hx, hv, ha⟩ := mem_eligible_iff.mp hr
    exact ⟨hx, r.value, hv, ha, Property.isSome_failure_idempotenceCase_iff.mp h⟩
  · obtain ⟨v, hv, ha, hchanged⟩ := hf
    have hr := mem_eligible_iff (r := ⟨.repeated f x, v⟩).mpr ⟨rfl, hx, hv, ha⟩
    exact ⟨_, List.mem_map_of_mem hr, Property.isSome_failure_idempotenceCase_iff.mpr hchanged⟩

theorem reapply_yields (h : sandbox.Computes target f) (eligible : List Return) (u : BatchUsage) :
    (t.reapply target eligible u).Yields sandbox (·.1 = Property.evaluate t.config Property.idempotence
      (eligible.map fun r => Property.idempotenceCase r.trial.input r.value (f [r.value]))) := by
  refine (runBatch_yields h _ u).bind fun ⟨calls, u'⟩ hcalls => ?_
  simp only at hcalls
  rw [hcalls]
  refine .finish (congrArg (Property.evaluate t.config Property.idempotence) ?_)
  rw [List.map_map, List.zip_eq_zipWith, List.map_zipWith, List.zipWith_map_right, List.zipWith_self]
  rfl

/-- A right result for idempotence. What takes several arguments, or none, cannot be applied to its own results. -/
structure Reapplied (params : List ParamType) (declared : Option String) (f : List Json → CallOutcome)
    (inputs : List (List Json)) (r : PropertyResult) : Prop where
  single : ∀ param, params = [param] →
    r.DecidesIf (Reapplies param declared f inputs) Property.idempotence (Property.Unstable param f) inputs
  other : (∀ param, params ≠ [param]) → ∃ reason, r = .skipped Property.idempotence reason

theorem Reapplied.of_single {r : PropertyResult}
    (h : r.DecidesIf (Reapplies param declared f inputs) Property.idempotence (Property.Unstable param f) inputs) :
    Reapplied [param] declared f inputs r where
  single param' hparam := by
    cases hparam
    exact h
  other hn := absurd rfl (hn param)

theorem checkIdempotence_yields (h : sandbox.Computes target f) (hmax : 1 ≤ t.config.maxCounterexamples)
    (params : List ParamType) (u : BatchUsage) :
    (t.checkIdempotence target params (inputs.map (Trial.repeated f)) u).Yields sandbox
      (Reapplied params target.signature.returns f inputs ·.1) := by
  unfold checkIdempotence
  split
  · rename_i param
    simp only
    split
    · rename_i reason hr
      refine .finish (.of_single ⟨fun _ => ⟨reason, rfl⟩, fun ha => ?_⟩)
      rw [typeMismatch?_eq_none_iff.mpr ⟨ha.annotated, ha.unannotated⟩] at hr
      cases hr
    · rename_i hmatch
      obtain ⟨hannotated, hunannotated⟩ := typeMismatch?_eq_none_iff.mp hmatch
      split
      · rename_i hnil
        exact .finish (.of_single ⟨fun _ => ⟨_, rfl⟩, fun ha => absurd hnil (eligible_ne_nil_iff.mpr ha.returned)⟩)
      · rename_i hne
        have hreturned := eligible_ne_nil_iff.mp hne
        refine (reapply_yields h _ u).mono fun r hr => .of_single ⟨fun hn => ?_, fun _ => ?_⟩
        · exact absurd ⟨hannotated, hunannotated, hreturned⟩ hn
        · exact hr ▸ decides_idempotence hmax
  · rename_i hn
    exact .finish ⟨fun param hparam => absurd hparam (hn param), fun _ => ⟨_, rfl⟩⟩

/-! ### Campaigns -/

/-- The results of a campaign on a function of some arguments: right about each property, and a skipped property is
one that does not apply. -/
inductive Judged (t : Tester) (declared : Option String) (params : List ParamType) (f : List Json → CallOutcome)
    (inputs : List (List Json)) : List PropertyResult → Prop
  | mk : raising.Decides Property.noException (fun x => ∃ type message, f x = .raised type message) inputs →
      repeated = .holds Property.determinism inputs.length →
      Reapplied params declared f inputs reapplied →
      (∀ p ∈ t.predicates, PropertyResult.DecidesIf (judged p) (∃ x ∈ inputs, ∃ v, f x = .returned v) p.name
        (fun x => ∃ v, f x = .returned v ∧ p.judge x v = .rejects) inputs) →
      Judged t declared params f inputs ([raising, repeated, reapplied] ++ t.predicates.map judged)

theorem campaignOn_yields (h : sandbox.Computes target f) (hmax : 1 ≤ t.config.maxCounterexamples)
    (hp : ∀ p ∈ t.predicates, ∀ x v, p.judge x v ≠ .crashes) (seed : Nat) (params : List ParamType)
    (inputs : List (List Json)) :
    (t.campaignOn target seed params inputs).Yields sandbox
      (fun c => t.Judged target.signature.returns params f inputs c.results) := by
  refine (runBatch_yields h _ {}).bind fun ⟨calls, u⟩ hcalls => ?_
  simp only at hcalls
  rw [hcalls]
  simp only [pairCalls_map]
  refine (checkIdempotence_yields h hmax params u).bind fun ⟨reapplied, u'⟩ hreapplied => ?_
  exact .finish (.mk (Property.decides_checkNoException hmax) (Property.checkDeterminism_repeated h.finite) hreapplied
    fun p hmem => Property.decidesIf_checkPredicate hmax (hp p hmem))

/-- **The results of a campaign are right**: where the target computes a function, and arguments can be drawn, there is
a campaign, and it says of each property what holds over the argument lists. -/
theorem campaign_judged {params : List ParamType} (h : sandbox.Computes target f)
    (hp : ∀ p ∈ t.predicates, ∀ x v, p.judge x v ≠ .crashes)
    (hparams : resolveParameters t.config target.signature = .ok params)
    (hmax : 1 ≤ t.config.maxCounterexamples) (fresh : Nat) :
    match Generator.generate t.config params t.config.trials
        (.ofSeed (UInt64.ofNat (t.config.seed.getD fresh))) with
    | .error fault => t.campaign target fresh = .error fault
    | .ok (inputs, _) => ∃ session, t.campaign target fresh = .ok session ∧ ∀ log, ∃ c log',
        session.play sandbox none log = (.finished c, log') ∧
          t.Judged target.signature.returns params f inputs c.results := by
  cases hg : Generator.generate t.config params t.config.trials
      (.ofSeed (UInt64.ofNat (t.config.seed.getD fresh))) with
  | error fault =>
    simp only [campaign, hparams, hg]
    rfl
  | ok generated =>
    obtain ⟨inputs, rest⟩ := generated
    refine ⟨t.campaignOn target (t.config.seed.getD fresh) params inputs, ?_,
      (campaignOn_yields h hmax hp _ params inputs).exists_play⟩
    simp only [campaign, hparams, hg]
    rfl

/-- A function that takes away one is tried on three numbers, and raises for a negative one. -/
theorem campaign_judged_decrement :
    let f : List Json → CallOutcome := fun
      | [.int n] => if n < 0 then .raised "ValueError" "negative" else .returned (.int (n - 1))
      | _ => .raised "TypeError" ""
    let small : Predicate := ⟨"small", fun _ v => if v == .int 0 then .rejects else .accepts⟩
    let t : Tester := ⟨{ trials := 3 }, [small]⟩
    let target : Target := ⟨"", "f", ⟨[⟨"n", some "int", "POSITIONAL_OR_KEYWORD", false⟩], some "int"⟩⟩
    let inputs : List (List Json) := [[.int 0], [.int 1], [.int (-1)]]
    let outcomes : Played Campaign → List PropertyOutcome := fun
      | .finished c => c.results.map (·.outcome)
      | _ => []
    ∃ session c log', t.campaign target 7 = .ok session ∧
      session.play (Sandbox.computing f) none .empty = (.finished c, log') ∧
      t.Judged (some "int") [.int] f inputs c.results ∧
      outcomes (.finished c) = [.violated, .holds, .violated, .violated] := by
  intro f small t target inputs outcomes
  have hfinite : ∀ x v, f x = .returned v → v.finite = true := by
    intro x v hv
    simp only [f] at hv
    split at hv
    · split at hv
      · cases hv
      · cases hv
        rfl
    · cases hv
  have hp : ∀ p ∈ t.predicates, ∀ x v, p.judge x v ≠ .crashes := by
    refine List.forall_mem_singleton.mpr fun x v => ?_
    simp only [small]
    split <;> decide
  have hg : Generator.generate t.config [.int] t.config.trials (.ofSeed (UInt64.ofNat (t.config.seed.getD 7)))
      = .ok (inputs, .ofSeed 7) := rfl
  have hparams : resolveParameters t.config target.signature = .ok [.int] := by
    have h : (resolveParameters t.config target.signature).toOption = some [.int] := by decide +kernel
    cases hr : resolveParameters t.config target.signature <;> rw [hr] at h <;> cases h
    rfl
  have h := campaign_judged (Sandbox.computes_computing hfinite target) hp hparams (by decide) 7
  rw [hg] at h
  obtain ⟨session, hs, hplay⟩ := h
  obtain ⟨c, log', hc, hjudged⟩ := hplay .empty
  have houtcomes : (t.campaign target 7).toOption.map
      (fun s => outcomes (s.play (Sandbox.computing f) none .empty).1)
        = some [.violated, .holds, .violated, .violated] := by
    decide +kernel
  refine ⟨session, c, log', hs, hc, hjudged, ?_⟩
  rw [hs] at houtcomes
  simpa [Except.toOption, hc] using houtcomes

end Tester

end Vetting
