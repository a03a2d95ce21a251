import Vetting.Proofs.Property.Battery
import Vetting.Proofs.Property.Conduct

/-!
# Judging the same evidence in two ways

Whether testing stops at the first violation makes no difference before the cases of a property are judged: the same
arguments are made up, and the same runs are asked for. What is there up to then is the evidence of a campaign
(`Examined`), and a campaign is an examination whose evidence is judged as the configuration says
(`Tester.exists_campaign_alongside`). So the two ways of judging can be compared case by case:

* `Property.halts_evaluate`: they agree on the verdict, and the one that stops shows the first failing case.
* `Tester.campaign_halting`: both ways of conducting a campaign, against every sandbox.
-/

namespace Vetting

/-- The configuration under which testing stops at the first violation, or does not. -/
def PropertyTestConfig.halting (c : PropertyTestConfig) (stop : Bool) : PropertyTestConfig :=
  { c with stopOnFirstViolation := stop }

/-! ### Drawing -/

namespace Generator

variable (c : PropertyTestConfig) (stop : Bool)

theorem candidates_halting (t : ParamType) : candidates (c.halting stop) t = candidates c t := by
  induction t with
  | bool | int | float | str => rfl
  | list t ih =>
    simp only [candidates, ih]
    rfl

theorem randomValue_halting (t : ParamType) : randomValue (c.halting stop) t = randomValue c t := by
  induction t with
  | bool | int | float | str => rfl
  | list t ih =>
    simp only [randomValue, ih]
    rfl

theorem arguments_halting (trial : Nat) (params : List (ParamType × List Json)) :
    arguments (c.halting stop) trial params = arguments c trial params := by
  induction params with
  | nil => rfl
  | cons p rest ih => simp only [arguments, randomValue_halting, ih]

theorem trialsFrom_halting (params : List (ParamType × List Json)) (start count : Nat) :
    trialsFrom (c.halting stop) params start count = trialsFrom c params start count := by
  induction count generalizing start with
  | zero => rfl
  | succ count ih => simp only [trialsFrom, arguments_halting, ih]

/-- The arguments are the same. -/
theorem generate_halting (params : List ParamType) (trials : Nat) :
    generate (c.halting stop) params trials = generate c params trials := by
  simp only [generate, edgeValues, candidates_halting, trialsFrom_halting]

end Generator

/-! ### Cases judged in two ways -/

namespace Property

variable {trials : Nat} {found : List CounterExample} {cases : List Case}

/-- Without a stop, all cases are looked at. -/
theorem gather_false_fst : (gather false trials found cases).1 = trials + cases.length := by
  induction cases generalizing trials found with
  | nil => rfl
  | cons c rest ih =>
    rw [List.length_cons, Nat.add_comm rest.length, ← Nat.add_assoc, gather]
    split
    · exact ih
    · split <;> exact ih

/-- With a stop, the first case that fails is the last to be looked at. -/
theorem gather_true_append {before after : List Case} {c : Case} {observed : String}
    (hbefore : ∀ b ∈ before, b.failure = none) (hc : c.failure = some observed) :
    gather true trials [] (before ++ c :: after) = (trials + before.length + 1, [⟨c.input, observed⟩]) := by
  induction before generalizing trials with
  | nil => simp [gather, hc]
  | cons b rest ih =>
    obtain ⟨hb, hrest⟩ := List.forall_mem_cons.mp hbefore
    rw [List.cons_append, gather, hb]
    simp only
    rw [ih hrest, List.length_cons, Nat.add_right_comm trials 1, Nat.add_assoc trials]

theorem smallest_singleton {limit : Nat} (h : 1 ≤ limit) (e : CounterExample) : smallest limit [e] = [e] := by
  rw [smallest, List.mergeSort_singleton]
  exact List.take_of_length_le h

/-- Two results on the same cases, with and without a stop at the first violation: the same verdict, and if that is
against the property, the one shows the first case that fails, and the other has looked at all. -/
structure Halts (property : String) (cases : List Case) (halted full : PropertyResult) : Prop where
  property_eq : halted.property = property ∧ full.property = property
  outcome_eq : halted.outcome = full.outcome
  trials_eq : full.trials = cases.length
  holds : full.outcome = .holds → halted = full
  holds_iff : full.outcome = .holds ↔ ∀ c ∈ cases, c.failure = none
  violated_iff : full.outcome = .violated ↔ ∃ c ∈ cases, c.failure.isSome = true
  violated : full.outcome = .violated → ∃ before c after observed, cases = before ++ c :: after ∧
    (∀ b ∈ before, b.failure = none) ∧ c.failure = some observed ∧
    halted = .violated property (before.length + 1) [⟨c.input, observed⟩]

theorem halts_of_forall {property : String} (h : ∀ c ∈ cases, c.failure = none) :
    Halts property cases (.holds property cases.length) (.holds property cases.length) where
  property_eq := ⟨rfl, rfl⟩
  outcome_eq := rfl
  trials_eq := rfl
  holds _ := rfl
  holds_iff := ⟨fun _ => h, fun _ => rfl⟩
  violated_iff := by
    refine ⟨nofun, fun ⟨c, hc, hfailed⟩ => ?_⟩
    rw [h c hc] at hfailed
    cases hfailed
  violated := nofun

theorem halts_of_failure {property observed : String} {before after : List Case} {c : Case}
    (hbefore : ∀ b ∈ before, b.failure = none) (hc : c.failure = some observed) (found : List CounterExample) :
    Halts property (before ++ c :: after) (.violated property (before.length + 1) [⟨c.input, observed⟩])
      (.violated property (before ++ c :: after).length found) where
  property_eq := ⟨rfl, rfl⟩
  outcome_eq := rfl
  trials_eq := rfl
  holds := nofun
  holds_iff := by
    refine ⟨nofun, fun h => ?_⟩
    have hnone := h c (List.mem_append_right _ List.mem_cons_self)
    rw [hc] at hnone
    cases hnone
  violated_iff :=
    ⟨fun _ => ⟨c, List.mem_append_right _ List.mem_cons_self, Option.isSome_of_mem hc⟩, fun _ => rfl⟩
  violated _ := ⟨before, c, after, observed, rfl, hbefore, hc, rfl⟩

theorem evaluate_of_gather {config : PropertyTestConfig} {property : String} {n : Nat}
    (h : gather config.stopOnFirstViolation 0 [] cases = (n, found)) (hfound : found ≠ []) :
    evaluate config property cases = .violated property n (smallest config.maxCounterexamples found) := by
  rw [evaluate, h]
  cases found with
  | nil => exact absurd rfl hfound
  | cons e rest => rfl

theorem halts_evaluate {config : PropertyTestConfig} (hmax : 1 ≤ config.maxCounterexamples) (property : String)
    (cases : List Case) :
    Halts property cases (evaluate (config.halting true) property cases)
      (evaluate (config.halting false) property cases) := by
  cases hfirst : cases.find? (·.failure.isSome) with
  | none =>
    have hnone : ∀ c ∈ cases, c.failure = none := fun c hc =>
      Option.not_isSome_iff_eq_none.mp (List.find?_eq_none.mp hfirst c hc)
    rw [evaluate_of_forall hnone, evaluate_of_forall hnone]
    exact halts_of_forall hnone
  | some c =>
    obtain ⟨hfailed, before, after, rfl, hbefore⟩ := List.find?_eq_some_iff_append.mp hfirst
    obtain ⟨observed, hc⟩ := Option.isSome_iff_exists.mp hfailed
    have hbefore : ∀ b ∈ before, b.failure = none := fun b hb => by simpa using hbefore b hb
    have hhalted : evaluate (config.halting true) property (before ++ c :: after)
        = .violated property (before.length + 1) [⟨c.input, observed⟩] := by
      rw [evaluate_of_gather (gather_true_append hbefore hc) (List.cons_ne_nil _ _), Nat.zero_add]
      exact congrArg _ (smallest_singleton hmax _)
    have hne : (gather false 0 [] (before ++ c :: after)).2 ≠ [] :=
      gather_ne_nil (.inr ⟨c, List.mem_append_right _ List.mem_cons_self, hfailed⟩)
    have hall : gather false 0 [] (before ++ c :: after) =
        ((before ++ c :: after).length, (gather false 0 [] (before ++ c :: after)).2) :=
      Prod.ext (gather_false_fst.trans (Nat.zero_add _)) rfl
    rw [hhalted, evaluate_of_gather hall hne]
    exact halts_of_failure hbefore hc _

end Property

/-! ### Evidence -/

/-- What there is to say about a property before its cases are judged: the cases, or a result that needs none. -/
inductive Evidence
  | tried (property : String) (cases : List Case)
  | settled (result : PropertyResult)

namespace Evidence

/-- The result under a configuration. -/
def result (config : PropertyTestConfig) : Evidence → PropertyResult
  | tried property cases => Property.evaluate config property cases
  | settled r => r

def ofPredicate (trials : List Trial) (p : Predicate) : Evidence :=
  match Property.predicateCases p [] trials with
  | .error before => settled (.error p.name before "predicate panicked")
  | .ok [] => settled (.skipped p.name "no call returned a value")
  | .ok cases => tried p.name cases

theorem result_ofPredicate (config : PropertyTestConfig) (trials : List Trial) (p : Predicate) :
    (ofPredicate trials p).result config = Property.checkPredicate config trials p := by
  unfold ofPredicate Property.checkPredicate
  cases Property.predicateCases p [] trials with
  | error before => rfl
  | ok cases =>
    cases cases with
    | nil | cons => rfl

/-- The cases are on some of the argument lists that were made up, in the order in which they were; what needs no cases
is not about the function. -/
def Grounded (inputs : List (List Json)) : Evidence → Prop
  | tried _ cases => (cases.map (·.input)).Sublist inputs
  | settled r => r.outcome = .error ∨ r.outcome = .skipped

theorem Grounded.mono {e : Evidence} {inputs inputs' : List (List Json)} (h : e.Grounded inputs)
    (hinputs : inputs.Sublist inputs') : e.Grounded inputs' := by
  cases e with
  | tried property cases => exact List.Sublist.trans h hinputs
  | settled r => exact h

/-- Each trial makes one case. -/
theorem grounded_map {property : String} {trials : List Trial} {f : Trial → Case} (h : ∀ t, (f t).input = t.input) :
    (tried property (trials.map f)).Grounded (trials.map (·.input)) := by
  have hinputs : (trials.map f).map (·.input) = trials.map (·.input) := by
    rw [List.map_map]
    exact List.map_congr_left fun t _ => h t
  exact hinputs ▸ List.Sublist.refl _

theorem sublist_of_predicateCases {p : Predicate} {trials : List Trial} {seen cases : List Case}
    (h : Property.predicateCases p seen trials = .ok cases) :
    (cases.map (·.input)).Sublist (seen.reverse.map (·.input) ++ trials.map (·.input)) := by
  induction trials generalizing seen with
  | nil =>
    cases h
    exact List.sublist_append_left _ _
  | cons t rest ih =>
    have hkeep {c : Case} (hc : c.input = t.input) (h : Property.predicateCases p (c :: seen) rest = .ok cases) :
        (cases.map (·.input)).Sublist (seen.reverse.map (·.input) ++ (t :: rest).map (·.input)) := by
      have hsublist := ih h
      rwa [List.reverse_cons, List.map_append, List.map_singleton, hc, List.append_assoc] at hsublist
    rw [Property.predicateCases] at h
    split at h
    · exact (ih h).trans ((List.sublist_cons_self _ _).append_left _)
    · split at h
      · exact hkeep rfl h
      · exact hkeep rfl h
      · cases h

theorem grounded_ofPredicate (trials : List Trial) (p : Predicate) :
    (ofPredicate trials p).Grounded (trials.map (·.input)) := by
  unfold ofPredicate
  split
  · exact .inl rfl
  · exact .inr rfl
  · rename_i cases _ h
    exact sublist_of_predicateCases h

end Evidence

/-- All that a campaign finds out, before any of it is judged. -/
structure Examined where
  seed : Nat
  /-- The argument lists that were made up. -/
  inputs : List (List Json)
  evidence : List Evidence
  usage : BatchUsage

/-- An examination of some argument lists, all of whose evidence is about them. -/
structure Examined.IsOn (e : Examined) (inputs : List (List Json)) : Prop where
  inputs_eq : e.inputs = inputs
  grounded : ∀ v ∈ e.evidence, v.Grounded inputs

namespace Examined

/-- The campaign that an examination makes under a configuration. -/
def campaign (config : PropertyTestConfig) (e : Examined) : Campaign where
  seed := e.seed
  trials := e.inputs.length
  results := e.evidence.map (·.result config)
  usage := e.usage

/-- The evidence of an examination, judged with and without a stop at the first violation: each property gets the same
verdict, and one that is judged by cases gets it as `Property.Halts` says. -/
structure Agrees (config : PropertyTestConfig) (e : Examined) : Prop where
  outcomes : (e.campaign (config.halting true)).results.map (fun r => (r.property, r.outcome))
    = (e.campaign (config.halting false)).results.map fun r => (r.property, r.outcome)
  settled : ∀ r, .settled r ∈ e.evidence → r.outcome = .error ∨ r.outcome = .skipped
  tried : ∀ property cases, .tried property cases ∈ e.evidence →
    (cases.map (·.input)).Sublist e.inputs ∧
      Property.Halts property cases (Property.evaluate (config.halting true) property cases)
        (Property.evaluate (config.halting false) property cases)

theorem IsOn.agrees {config : PropertyTestConfig} {e : Examined} {inputs : List (List Json)} (h : e.IsOn inputs)
    (hmax : 1 ≤ config.maxCounterexamples) : e.Agrees config where
  outcomes := by
    simp only [campaign, List.map_map]
    refine List.map_congr_left fun v _ => ?_
    cases v with
    | settled r => rfl
    | tried property cases =>
      have hhalts := Property.halts_evaluate hmax property cases
      exact Prod.ext (hhalts.property_eq.1.trans hhalts.property_eq.2.symm) hhalts.outcome_eq
  settled r hr := h.grounded (.settled r) hr
  tried property cases hmem := by
    have hsublist : (cases.map (·.input)).Sublist inputs := h.grounded (.tried property cases) hmem
    exact ⟨h.inputs_eq ▸ hsublist, Property.halts_evaluate hmax property cases⟩

end Examined

namespace Tester

variable {t : Tester} {target : Target} {stop : Bool}

/-! ### Examinations -/

/-- The evidence on idempotence that a second batch gives. -/
def examineReturns (target : Target) (eligible : List Return) (usage : BatchUsage) :
    Session (Evidence × BatchUsage) := do
  let (calls, usage) ← runBatch target (eligible.map fun r => [r.value]) usage
  match calls with
  | .error detail => return (.settled (.error Property.idempotence 0 detail), usage)
  | .ok calls =>
    let cases := (eligible.zip calls).map fun (r, twice) =>
      Property.idempotenceCase r.trial.input r.value twice
    return (.tried Property.idempotence cases, usage)

/-- The returned values that are fed back in, or why none are. -/
def reapplicable (target : Target) (params : List ParamType) (trials : List Trial) : Except String (List Return) :=
  match params with
  | [param] =>
    match typeMismatch? param target.signature.returns (returns trials) with
    | some reason => .error reason
    | none =>
      match (returns trials).filter fun r => param.accepts r.value with
      | [] => .error "no call returned a usable value"
      | eligible => .ok eligible
  | _ => .error ("needs exactly one parameter, found " ++ toString params.length)

def examineIdempotence (target : Target) (params : List ParamType) (trials : List Trial) (usage : BatchUsage) :
    Session (Evidence × BatchUsage) :=
  match reapplicable target params trials with
  | .error reason => return (.settled (.skipped Property.idempotence reason), usage)
  | .ok eligible => examineReturns target eligible usage

/-- The examination on given arguments. -/
def examineOn (t : Tester) (target : Target) (seed : Nat) (params : List ParamType) (inputs : List (List Json)) :
    Session Examined := do
  let (calls, usage) ← runBatch target (inputs.flatMap fun x => [x, x]) {}
  match calls with
  | .error detail =>
    return ⟨seed, inputs, t.propertyNames.map fun name => .settled (.error name 0 detail), usage⟩
  | .ok calls =>
    let trials := pairCalls inputs calls
    let (idempotence, usage) ← examineIdempotence target params trials usage
    let evidence := [.tried Property.noException (trials.map Property.exceptionCase),
      .tried Property.determinism (trials.map Property.determinismCase), idempotence]
        ++ t.predicates.map (Evidence.ofPredicate trials)
    return ⟨seed, inputs, evidence, usage⟩

/-- A campaign that is not judged yet. -/
def examine (t : Tester) (target : Target) (fresh : Nat) : Except RangeFault (Session Examined) :=
  let seed := t.config.seed.getD fresh
  match resolveParameters t.config target.signature with
  | .error reason =>
    .ok (.finish ⟨seed, [], t.propertyNames.map fun name => .settled (.skipped name reason), {}⟩)
  | .ok params => (t.drawn fresh params).map fun (inputs, _) => t.examineOn target seed params inputs

/-! ### Campaigns are judged examinations -/

theorem examineReturns_alongside (eligible : List Return) (u : BatchUsage) :
    (examineReturns target eligible u).Alongside (fun e r => r = (e.1.result t.config, e.2))
      (t.reapply target eligible u) := by
  refine (Session.alongside_self _).bind fun batch batch' hbatch => ?_
  cases hbatch
  obtain ⟨calls, u'⟩ := batch
  cases calls with
  | error | ok => exact .finish rfl

theorem checkIdempotence_eq (params : List ParamType) (trials : List Trial) (u : BatchUsage) :
    t.checkIdempotence target params trials u = match reapplicable target params trials with
      | .error reason => pure (.skipped Property.idempotence reason, u)
      | .ok eligible => t.reapply target eligible u := by
  match params with
  | [] | _ :: _ :: _ => rfl
  | [param] =>
    simp only [checkIdempotence, reapplicable]
    cases typeMismatch? param target.signature.returns (returns trials) with
    | some reason => rfl
    | none =>
      cases (returns trials).filter fun r => param.accepts r.value with
      | nil | cons => rfl

theorem examineIdempotence_alongside (params : List ParamType) (trials : List Trial) (u : BatchUsage) :
    (examineIdempotence target params trials u).Alongside (fun e r => r = (e.1.result t.config, e.2))
      (t.checkIdempotence target params trials u) := by
  rw [checkIdempotence_eq, examineIdempotence]
  cases reapplicable target params trials with
  | error reason => exact .finish rfl
  | ok eligible => exact examineReturns_alongside eligible u

theorem examineOn_alongside (seed : Nat) (params : List ParamType) (inputs : List (List Json)) :
    (t.examineOn target seed params inputs).Alongside (fun e c => c = e.campaign t.config)
      (t.campaignOn target seed params inputs) := by
  refine (Session.alongside_self _).bind fun batch batch' hbatch => ?_
  cases hbatch
  obtain ⟨calls, u⟩ := batch
  cases calls with
  | error detail =>
    refine .finish ?_
    simp only [Examined.campaign, all, List.map_map]
    rfl
  | ok calls =>
    refine (examineIdempotence_alongside params (pairCalls inputs calls) u).bind fun examined judged hjudged => ?_
    cases hjudged
    refine .finish ?_
    simp only [Examined.campaign, List.map_append, List.map_cons, List.map_nil, List.map_map, Function.comp_def,
      Evidence.result_ofPredicate]
    rfl

/-! ### What examinations are about -/

theorem pairCalls_sublist (inputs : List (List Json)) (calls : List CallOutcome) :
    ((pairCalls inputs calls).map (·.input)).Sublist inputs := by
  induction inputs generalizing calls with
  | nil => exact List.Sublist.refl []
  | cons x rest ih =>
    match calls with
    | [] | [_] => exact List.nil_sublist _
    | first :: second :: calls => exact (ih calls).cons_cons x

theorem returns_sublist (trials : List Trial) :
    ((returns trials).map (·.trial.input)).Sublist (trials.map (·.input)) := by
  induction trials with
  | nil => exact List.Sublist.refl []
  | cons t rest ih =>
    cases hv : t.first.value? with
    | none =>
      rw [returns, List.filterMap_cons_none (by rw [hv]; rfl)]
      exact ih.cons t.input
    | some v =>
      rw [returns, List.filterMap_cons_some (by rw [hv]; rfl)]
      exact ih.cons_cons t.input

theorem sublist_of_reapplicable {params : List ParamType} {trials : List Trial} {eligible : List Return}
    (h : reapplicable target params trials = .ok eligible) : eligible.Sublist (returns trials) := by
  unfold reapplicable at h
  split at h
  · split at h
    · cases h
    · split at h
      · cases h
      · cases h
        exact List.filter_sublist
  · cases h

theorem examineReturns_always (eligible : List Return) (u : BatchUsage) :
    (examineReturns target eligible u).Always fun _ e => e.1.Grounded (eligible.map (·.trial.input)) := by
  refine (runBatch_always _ u).bind fun runs _ ⟨second, hruns, hcalls⟩ => ?_
  cases hruns
  by_cases hs : second.Completes (eligible.map fun r => [r.value]).length
  · rw [hcalls, completeCalls_of_completes hs]
    have hzip : (eligible.zip second.calls).map Prod.fst = eligible :=
      List.map_fst_zip (Nat.le_of_eq (by rw [hs.counted, List.length_map]))
    have hinputs : ((eligible.zip second.calls).map fun p => p.1.trial.input) = eligible.map (·.trial.input) := by
      have hmap := congrArg (List.map fun r : Return => r.trial.input) hzip
      rwa [List.map_map] at hmap
    refine Session.always_finish ?_
    simp only [Evidence.Grounded, List.map_map]
    exact hinputs ▸ List.Sublist.refl _
  · obtain ⟨detail, hdetail⟩ := completeCalls_of_not_completes hs
    rw [hcalls, hdetail]
    exact Session.always_finish (.inl rfl)

theorem examineIdempotence_always (params : List ParamType) (trials : List Trial) (u : BatchUsage) :
    (examineIdempotence target params trials u).Always fun _ e => e.1.Grounded (trials.map (·.input)) := by
  unfold examineIdempotence
  cases h : reapplicable target params trials with
  | error reason => exact Session.always_finish (.inr rfl)
  | ok eligible =>
    have heligible := ((sublist_of_reapplicable h).map (·.trial.input)).trans (returns_sublist trials)
    exact (examineReturns_always eligible u).mono fun _ e he => he.mono heligible

theorem examineOn_always (seed : Nat) (params : List ParamType) (inputs : List (List Json)) :
    (t.examineOn target seed params inputs).Always fun _ e => e.IsOn inputs := by
  refine (runBatch_always _ {}).bind fun runs batch _ => ?_
  obtain ⟨calls, u⟩ := batch
  cases calls with
  | error detail =>
    refine Session.always_finish ⟨rfl, List.forall_mem_map.mpr fun name _ => ?_⟩
    exact .inl rfl
  | ok calls =>
    have hinputs := pairCalls_sublist inputs calls
    refine (examineIdempotence_always params (pairCalls inputs calls) u).bind fun later examined hexamined => ?_
    refine Session.always_finish ⟨rfl, List.forall_mem_append.mpr ⟨?_, List.forall_mem_map.mpr fun p _ => ?_⟩⟩
    · have hmapped {property : String} {f : Trial → Case} (h : ∀ t, (f t).input = t.input) :
          (Evidence.tried property ((pairCalls inputs calls).map f)).Grounded inputs :=
        (Evidence.grounded_map h).mono hinputs
      simp only [List.forall_mem_cons]
      exact ⟨hmapped fun _ => rfl, hmapped fun _ => rfl, hexamined.mono hinputs, List.forall_mem_nil _⟩
    · exact (Evidence.grounded_ofPredicate _ p).mono hinputs

/-! ### Both ways of judging -/

/-- The tester that stops at the first violation of a property, or does not. -/
def halting (t : Tester) (stop : Bool) : Tester := { t with config := t.config.halting stop }

theorem drawn_halting (fresh : Nat) (params : List ParamType) :
    (t.halting stop).drawn fresh params = t.drawn fresh params := by
  simp only [drawn, halting, Generator.generate_halting]
  rfl

/-- An examination does not look at whether testing stops. -/
theorem examine_halting (target : Target) (fresh : Nat) :
    (t.halting stop).examine target fresh = t.examine target fresh := by
  simp only [examine, drawn_halting]
  rfl

/-- A campaign goes alongside its examination and judges it. Where the one is refused, so is the other. -/
theorem campaign_alongside_examine (t : Tester) (target : Target) (fresh : Nat) :
    (∃ fault, t.examine target fresh = .error fault ∧ t.campaign target fresh = .error fault) ∨
      ∃ examination session, t.examine target fresh = .ok examination ∧ t.campaign target fresh = .ok session ∧
        examination.Alongside (fun e c => c = e.campaign t.config) session := by
  obtain ⟨reason, hr, hc⟩ | ⟨params, fault, hp, hd, hc⟩ | ⟨params, inputs, words, hp, hd, hc⟩ :=
    t.campaign_cases target fresh
  · have he : t.examine target fresh = .ok (.finish ⟨t.config.seed.getD fresh, [],
        t.propertyNames.map fun name => .settled (.skipped name reason), {}⟩) := by
      simp only [examine, hr]
    refine .inr ⟨_, _, he, hc, .finish ?_⟩
    simp only [Examined.campaign, all, List.map_map]
    rfl
  · have he : t.examine target fresh = .error fault := by
      simp only [examine, hp, hd]
      rfl
    exact .inl ⟨fault, he, hc⟩
  · have he : t.examine target fresh = .ok (t.examineOn target (t.config.seed.getD fresh) params inputs) := by
      simp only [examine, hp, hd]
      rfl
    exact .inr ⟨_, _, he, hc, examineOn_alongside _ params inputs⟩

/-- The argument lists of an examination are those that were drawn, if there are types to draw for. -/
def IsDrawn (t : Tester) (target : Target) (fresh : Nat) (inputs : List (List Json)) : Prop :=
  ∀ params, resolveParameters t.config target.signature = .ok params →
    ∃ words, t.drawn fresh params = .ok (inputs, words)

theorem examine_always {fresh : Nat} {examination : Session Examined} (h : t.examine target fresh = .ok examination) :
    examination.Always fun _ e => e.IsOn e.inputs ∧ t.IsDrawn target fresh e.inputs := by
  unfold examine at h
  cases hp : resolveParameters t.config target.signature with
  | error reason =>
    rw [hp] at h
    cases h
    refine Session.always_finish ⟨⟨rfl, List.forall_mem_map.mpr fun name _ => .inr rfl⟩, fun params hparams => ?_⟩
    cases hp.symm.trans hparams
  | ok params =>
    rw [hp] at h
    cases hd : t.drawn fresh params with
    | error fault =>
      simp only [hd] at h
      cases h
    | ok made =>
      simp only [hd] at h
      cases h
      refine (examineOn_always _ params made.1).mono fun _ e he => ?_
      rw [he.inputs_eq]
      refine ⟨he, fun params' hparams => ?_⟩
      cases hp.symm.trans hparams
      exact ⟨made.2, hd⟩

/-- **Stopping at the first violation changes no verdict**: with and without it, a campaign is refused alike, or it asks
the same of every sandbox, and judges the same evidence, on which the two agree. -/
theorem campaign_halting (hmax : 1 ≤ t.config.maxCounterexamples) (target : Target) (fresh : Nat) :
    (∃ fault, ∀ stop, (t.halting stop).campaign target fresh = .error fault) ∨
      ∃ examination, t.examine target fresh = .ok examination ∧
        (∀ stop, ∃ session, (t.halting stop).campaign target fresh = .ok session ∧ ∀ sandbox deadline log,
          session.play sandbox deadline log =
            ((examination.play sandbox deadline log).1.map (·.campaign (t.config.halting stop)),
              (examination.play sandbox deadline log).2)) ∧
        ∀ sandbox deadline log e, (examination.play sandbox deadline log).1 = .finished e →
          t.IsDrawn target fresh e.inputs ∧ e.Agrees t.config := by
  cases he : t.examine target fresh with
  | error fault =>
    refine .inl ⟨fault, fun stop => ?_⟩
    obtain ⟨_, he', hc⟩ | ⟨_, _, he', -, -⟩ := (t.halting stop).campaign_alongside_examine target fresh
    · cases ((examine_halting target fresh).trans he).symm.trans he'
      exact hc
    · cases ((examine_halting target fresh).trans he).symm.trans he'
  | ok examination =>
    refine .inr ⟨examination, rfl, fun stop => ?_, fun sandbox deadline log e hplayed => ?_⟩
    · obtain ⟨_, he', -⟩ | ⟨_, session, he', hc, h⟩ := (t.halting stop).campaign_alongside_examine target fresh
      · cases ((examine_halting target fresh).trans he).symm.trans he'
      · cases ((examine_halting target fresh).trans he).symm.trans he'
        exact ⟨session, hc, fun sandbox deadline log => h.play_eq log⟩
    · obtain ⟨_, -, -, hon, hdrawn⟩ := (examine_always he).of_plays (hplayed ▸ Session.plays examination log)
      exact ⟨hdrawn, hon.agrees hmax⟩

/-- A function that raises for negative numbers, and a property that its value at one goes against: the one way of
testing is done with the property after two cases, the other looks at all. -/
theorem campaign_halting_increment :
    let f : List Json → CallOutcome := fun
      | [.int n] => if n < 0 then .raised "ValueError" "negative" else .returned (.int (n + 1))
      | _ => .raised "TypeError" ""
    let odd : Predicate := ⟨"odd", fun _ v => if v == .int 2 then .rejects else .accepts⟩
    let t : Tester := ⟨{ trials := 5 }, [odd]⟩
    let target : Target := ⟨"", "f", ⟨[⟨"n", some "int", "POSITIONAL_OR_KEYWORD", false⟩], some "int"⟩⟩
    let verdicts : Played Campaign → List (PropertyOutcome × Nat) := fun
      | .finished c => c.results.map fun r => (r.outcome, r.trials)
      | _ => []
    1 ≤ t.config.maxCounterexamples ∧
      ∃ examination halted full, t.examine target 7 = .ok examination ∧
        (t.halting true).campaign target 7 = .ok halted ∧ (t.halting false).campaign target 7 = .ok full ∧
        (∃ e, (examination.play (Sandbox.computing f) none .empty).1 = .finished e ∧ e.Agrees t.config) ∧
        verdicts (halted.play (Sandbox.computing f) none .empty).1 =
          [(.violated, 3), (.holds, 5), (.violated, 1), (.violated, 2)] ∧
        verdicts (full.play (Sandbox.computing f) none .empty).1 =
          [(.violated, 5), (.holds, 5), (.violated, 3), (.violated, 3)] := by
  intro f odd t target verdicts
  have hmax : 1 ≤ t.config.maxCounterexamples := by decide
  have hverdicts (stop : Bool) : ((t.halting stop).campaign target 7).toOption.map
      (fun s => verdicts (s.play (Sandbox.computing f) none .empty).1) =
        some (if stop then [(.violated, 3), (.holds, 5), (.violated, 1), (.violated, 2)]
          else [(.violated, 5), (.holds, 5), (.violated, 3), (.violated, 3)]) := by
    cases stop <;> decide +kernel
  have hplayed {stop : Bool} {session : Session Campaign} (hc : (t.halting stop).campaign target 7 = .ok session) :=
    Option.some.inj ((congrArg (fun c => c.toOption.map fun s =>
      verdicts (s.play (Sandbox.computing f) none .empty).1) hc).symm.trans (hverdicts stop))
  obtain ⟨fault, hrefused⟩ | ⟨examination, he, hsession, hagrees⟩ := campaign_halting hmax target 7
  · have h := hverdicts true
    rw [hrefused true] at h
    cases h
  · obtain ⟨halted, hhalted, -⟩ := hsession true
    obtain ⟨full, hfull, -⟩ := hsession false
    have hends : ∀ earlier request, (Sandbox.computing f earlier request).delay.isSome = true := fun _ _ => rfl
    obtain ⟨e, log, hplay⟩ := examination.exists_play hends .empty
    have hfinished : (examination.play (Sandbox.computing f) none .empty).1 = .finished e := congrArg Prod.fst hplay
    exact ⟨hmax, examination, halted, full, he, hhalted, hfull, ⟨e, hfinished, (hagrees _ _ _ e hfinished).2⟩,
      hplayed hhalted, hplayed hfull⟩

end Tester

end Vetting
