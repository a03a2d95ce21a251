import Vetting.Proofs.Property.Campaign
import Vetting.Proofs.Property.Consumption
import Vetting.Proofs.Property.Drawing
import Vetting.Proofs.Sandbox.Sessions

/-!
# How campaigns are conducted

Whatever a sandbox answers, a campaign ends with one result for each property, and with accounts of the runs it asked
for (`Tester.Conduct`). There are three ends: no arguments can be made up, the first batch is of no use, or there are
calls to judge.

* `Tester.Tried`: the last two, by what the runs gave, and `Tester.Opened`: all three. `Tester.campaign_always` says that
  there are no others.
* `Tester.campaignOn_adding`: a campaign with one more predicate, alongside the one without.
* `Tester.campaign_conduct`: both of every campaign that takes place, and what keeps one from it.
-/

namespace Vetting

/-! ### Runs of batches -/

/-- A run came to its end and has an outcome for each of a number of calls. -/
structure RunResult.Completes (r : RunResult) (calls : Nat) : Prop where
  usable : r.isUsable = true
  found : r.entryPointFound = some true
  counted : r.calls.length = calls

/-- A usage with some more runs taken up. -/
def BatchUsage.taking (u : BatchUsage) (runs : List (Request × RunResult)) : BatchUsage :=
  (runs.map (·.2)).foldl record u

namespace Tester

variable {t : Tester} {target : Target}

theorem completeCalls_of_completes {r : RunResult} {n : Nat} (h : r.Completes n) : completeCalls r n = .ok r.calls := by
  simp [completeCalls, h.usable, h.found, h.counted]

theorem completeCalls_of_not_completes {r : RunResult} {n : Nat} (h : ¬ r.Completes n) :
    ∃ detail, completeCalls r n = .error detail := by
  unfold completeCalls
  split
  case isTrue => exact ⟨_, rfl⟩
  case isFalse husable =>
    split
    case isTrue => exact ⟨_, rfl⟩
    case isFalse hfound =>
      split
      case isTrue => exact ⟨_, rfl⟩
      case isFalse hcounted =>
        refine absurd ⟨?_, Classical.not_not.mp hfound, Classical.not_not.mp hcounted⟩ h
        simpa using husable

/-! ### Batches -/

/-- Every argument list twice in a row. -/
def doubled (inputs : List (List Json)) : List (List Json) := inputs.flatMap fun x => [x, x]

theorem length_doubled (inputs : List (List Json)) : (doubled inputs).length = 2 * inputs.length := by
  induction inputs with
  | nil => rfl
  | cons x rest ih =>
    have hcons : doubled (x :: rest) = x :: x :: doubled rest := rfl
    rw [hcons, List.length_cons, List.length_cons, ih, List.length_cons]
    omega

theorem getElem?_doubled (inputs : List (List Json)) (i : Nat) :
    (doubled inputs)[2 * i]? = inputs[i]? ∧ (doubled inputs)[2 * i + 1]? = inputs[i]? := by
  induction inputs generalizing i with
  | nil => exact ⟨rfl, rfl⟩
  | cons x rest ih =>
    have hcons : doubled (x :: rest) = x :: x :: doubled rest := rfl
    rw [hcons]
    cases i with
    | zero => exact ⟨rfl, rfl⟩
    | succ i => exact ih i

theorem runBatch_always (inputs : List (List Json)) (u : BatchUsage) :
    (runBatch target inputs u).Always fun runs r =>
      ∃ result, runs = [(batchRequest target inputs, result)] ∧ r = (completeCalls result inputs.length, u.record result) :=
  fun result => ⟨result, rfl, rfl⟩

/-! ### Results -/

/-- What becomes of idempotence. A second batch that is of no use is the one reason for an error. -/
structure Reapplication (later : List (Request × RunResult)) (r : PropertyResult) : Prop where
  property : r.property = Property.idempotence
  length_le : later.length ≤ 1
  error_iff : r.outcome = .error ↔ ∃ batch second, later = [(batch, second)] ∧ ¬ second.Completes batch.inputs.length
  trials_eq_zero : r.outcome = .error → r.trials = 0

/-- The results on the calls of a first batch. None of them but idempotence looks at anything else. -/
def judged (t : Tester) (trials : List Trial) (idempotence : PropertyResult) : List PropertyResult :=
  [Property.checkNoException t.config trials, Property.checkDeterminism t.config trials, idempotence]
    ++ t.predicates.map (Property.checkPredicate t.config trials)

/-- A first batch, and what comes of it: errors and no other batch if it is of no use, or else a result for each
property. -/
structure Tried (t : Tester) (target : Target) (inputs : List (List Json)) (batch : Request) (first : RunResult)
    (later : List (Request × RunResult)) (results : List PropertyResult) : Prop where
  source_eq : batch.source = target.source
  entryPoint_eq : batch.entryPoint = some target.entryPoint
  length_eq : batch.inputs.length = 2 * inputs.length
  twice : ∀ i, batch.inputs[2 * i]? = inputs[i]? ∧ batch.inputs[2 * i + 1]? = inputs[i]?
  broken : ¬ first.Completes (2 * inputs.length) →
    later = [] ∧ ∃ detail, results = t.all fun name => .error name 0 detail
  complete : first.Completes (2 * inputs.length) →
    ∃ r, results = t.judged (pairCalls inputs first.calls) r ∧ Reapplication later r

theorem reapplication_skipped (reason : String) : Reapplication [] (.skipped Property.idempotence reason) where
  property := rfl
  length_le := Nat.zero_le 1
  error_iff := by
    constructor
    · intro h
      cases h
    · rintro ⟨_, _, h, -⟩
      cases h
  trials_eq_zero h := by cases h

theorem outcome_evaluate_ne_error (config : PropertyTestConfig) (name : String) (cases : List Case) :
    (Property.evaluate config name cases).outcome ≠ .error := by
  unfold Property.evaluate
  split
  · exact PropertyOutcome.noConfusion
  · exact PropertyOutcome.noConfusion

theorem reapply_always (eligible : List Return) (u : BatchUsage) :
    (t.reapply target eligible u).Always fun later r => Reapplication later r.1 ∧ r.2 = u.taking later := by
  refine (runBatch_always _ u).bind fun runs _ ⟨second, hruns, hcalls⟩ => ?_
  cases hruns
  by_cases hs : second.Completes (eligible.map fun r => [r.value]).length
  · rw [hcalls, completeCalls_of_completes hs]
    refine ⟨⟨Property.evaluate_property .., Nat.le_refl 1, ?_, fun h => (outcome_evaluate_ne_error _ _ _ h).elim⟩, rfl⟩
    constructor
    · exact fun h => (outcome_evaluate_ne_error _ _ _ h).elim
    · rintro ⟨_, _, h, hbroken⟩
      cases h
      exact absurd hs hbroken
  · obtain ⟨detail, hdetail⟩ := completeCalls_of_not_completes hs
    rw [hcalls, hdetail]
    exact ⟨⟨rfl, Nat.le_refl 1, ⟨fun _ => ⟨_, second, rfl, hs⟩, fun _ => rfl⟩, fun _ => rfl⟩, rfl⟩

theorem checkIdempotence_always (params : List ParamType) (trials : List Trial) (u : BatchUsage) :
    (t.checkIdempotence target params trials u).Always fun later r =>
      Reapplication later r.1 ∧ r.2 = u.taking later := by
  unfold checkIdempotence
  split
  · simp only
    split
    · exact ⟨reapplication_skipped _, rfl⟩
    · split
      · exact ⟨reapplication_skipped _, rfl⟩
      · exact reapply_always _ u
  · exact ⟨reapplication_skipped _, rfl⟩

theorem names_judged (trials : List Trial) {r : PropertyResult} (h : r.property = Property.idempotence) :
    (t.judged trials r).map (·.property) = t.propertyNames := by
  simp only [judged, propertyNames, Property.battery, Property.checkNoException, Property.checkDeterminism,
    Property.evaluate_property, h, List.map_append, List.map_cons, List.map_nil, List.map_map, Function.comp_def,
    Property.checkPredicate_property]

theorem campaignOn_always (seed : Nat) (params : List ParamType) (inputs : List (List Json)) :
    (t.campaignOn target seed params inputs).Always fun runs c =>
      t.Names c ∧ runs.length ≤ 2 ∧ c.usage = BatchUsage.taking {} runs ∧
        ∃ batch first later, runs = (batch, first) :: later ∧ t.Tried target inputs batch first later c.results := by
  refine (runBatch_always (doubled inputs) {}).bind fun runs _ ⟨first, hruns, hcalls⟩ => ?_
  cases hruns
  rw [length_doubled] at hcalls
  by_cases hf : first.Completes (2 * inputs.length)
  · rw [hcalls, completeCalls_of_completes hf]
    refine (checkIdempotence_always params _ _).bind fun later ⟨r, _⟩ ⟨hr, hu⟩ => ?_
    refine Session.always_finish ?_
    rw [List.append_nil]
    refine ⟨names_judged _ hr.property, Nat.succ_le_succ hr.length_le, hu, batchRequest target (doubled inputs), first,
      later, rfl, rfl, rfl, length_doubled inputs, getElem?_doubled inputs, ?_, ?_⟩
    · exact fun hbroken => absurd hf hbroken
    · exact fun _ => ⟨r, rfl, hr⟩
  · obtain ⟨detail, hdetail⟩ := completeCalls_of_not_completes hf
    rw [hcalls, hdetail]
    refine ⟨map_property_all (fun name => .error name 0 detail) fun _ => rfl, Nat.le_succ 1, rfl,
      batchRequest target (doubled inputs), first, [], rfl, rfl, rfl, length_doubled inputs, getElem?_doubled inputs,
      ?_, ?_⟩
    · exact fun _ => ⟨rfl, detail, rfl⟩
    · exact fun hcomplete => absurd hcomplete hf

/-! ### One more predicate -/

/-- The tester with one more property at the end. -/
def adding (t : Tester) (p : Predicate) : Tester := { t with predicates := t.predicates ++ [p] }

/-- The same campaign but for one more result, at the end. -/
def IsExtended (p : Predicate) (c c' : Campaign) : Prop :=
  ∃ r, r.property = p.name ∧ c' = { c with results := c.results ++ [r] }

theorem all_adding (p : Predicate) (outcome : String → PropertyResult) :
    (t.adding p).all outcome = t.all outcome ++ [outcome p.name] := by
  simp only [all, propertyNames, adding, List.map_append, List.map_cons, List.map_nil, List.append_assoc]

theorem campaignOn_adding (p : Predicate) (seed : Nat) (params : List ParamType) (inputs : List (List Json)) :
    (t.campaignOn target seed params inputs).Alongside (IsExtended p)
      ((t.adding p).campaignOn target seed params inputs) := by
  refine (Session.alongside_self _).bind fun batch batch' hbatch => ?_
  cases hbatch
  obtain ⟨calls, u⟩ := batch
  cases calls with
  | error detail =>
    refine .finish ⟨.error p.name 0 detail, rfl, ?_⟩
    simp only [all_adding]
  | ok calls =>
    refine (Session.alongside_self (t.checkIdempotence target params (pairCalls inputs calls) u)).bind
      fun tested tested' htested => ?_
    cases htested
    refine .finish ⟨Property.checkPredicate t.config (pairCalls inputs calls) p, Property.checkPredicate_property .., ?_⟩
    simp only [adding, List.map_append, List.map_cons, List.map_nil, List.append_assoc]

/-! ### Campaigns -/

/-- What a campaign comes to: no run, and every property skipped, if the parameters have no types to make up arguments
for, or else a first batch of arguments that were made up. -/
structure Opened (t : Tester) (target : Target) (fresh : Nat) (runs : List (Request × RunResult))
    (results : List PropertyResult) : Prop where
  unresolved : ∀ reason, resolveParameters t.config target.signature = .error reason →
    runs = [] ∧ results = t.all fun name => .skipped name reason
  resolved : ∀ params, resolveParameters t.config target.signature = .ok params →
    ∃ inputs words batch first later, t.drawn fresh params = .ok (inputs, words) ∧ inputs.length = t.config.trials ∧
      runs = (batch, first) :: later ∧ t.Tried target inputs batch first later results

/-- How a campaign went, by what it asked for and was given, first to last. -/
structure Conduct (t : Tester) (target : Target) (fresh : Nat) (runs : List (Request × RunResult)) (c : Campaign) :
    Prop where
  names : t.Names c
  length_le : runs.length ≤ 2
  usage_eq : c.usage = .ofRuns (runs.map (·.2))
  opened : t.Opened target fresh runs c.results

theorem campaign_always {fresh : Nat} {session : Session Campaign} (h : t.campaign target fresh = .ok session) :
    session.Always (t.Conduct target fresh) := by
  obtain ⟨reason, hr, hc⟩ | ⟨_, _, -, -, hc⟩ | ⟨params, inputs, words, hp, hd, hc⟩ := t.campaign_cases target fresh
  · cases hc.symm.trans h
    refine ⟨map_property_all (fun name => .skipped name reason) fun _ => rfl, Nat.zero_le 2, rfl, ?_, ?_⟩
    · intro reason' hr'
      cases hr.symm.trans hr'
      exact ⟨rfl, rfl⟩
    · intro params hp
      cases hr.symm.trans hp
  · cases hc.symm.trans h
  · cases hc.symm.trans h
    refine (campaignOn_always _ params inputs).mono ?_
    rintro _ c ⟨hnames, hle, hu, batch, first, later, rfl, htried⟩
    refine ⟨hnames, hle, hu.trans (BatchUsage.foldl_record _), ?_, ?_⟩
    · intro reason hr
      cases hp.symm.trans hr
    · intro params' hp'
      cases hp.symm.trans hp'
      exact ⟨inputs, words, batch, first, later, hd, Generator.length_of_generate hd, rfl, htried⟩

section

variable {fresh : Nat} {session : Session Campaign} {sandbox : Sandbox} {deadline : Option Duration} {log log' : Log}
  {c : Campaign}

/-- A campaign that was finished has one result for each property. -/
theorem names_of_campaign (h : t.campaign target fresh = .ok session)
    (hp : session.Plays sandbox deadline log (.finished c) log') : t.Names c := by
  obtain ⟨_, -, -, hconduct⟩ := (campaign_always h).of_plays hp
  exact hconduct.names

/-- A campaign that was finished has taken up every run that it asked for. -/
theorem usage_of_campaign (h : t.campaign target fresh = .ok session)
    (hp : session.Plays sandbox deadline log (.finished c) log') :
    ∃ batches, log'.results = batches ++ log.results ∧ c.usage = .ofRuns batches := by
  obtain ⟨runs, -, hresults, hconduct⟩ := (campaign_always h).of_plays hp
  exact ⟨_, hresults, hconduct.usage_eq.trans (BatchUsage.ofRuns_reverse _).symm⟩

/-- A campaign asks for two runs at most, also if it is not finished. -/
theorem length_requests_of_campaign {played : Played Campaign} (h : t.campaign target fresh = .ok session)
    (hp : session.Plays sandbox deadline log played log') : log'.requests.length ≤ log.requests.length + 2 := by
  obtain ⟨runs, c, hconduct, hle⟩ := (campaign_always h).exists_le_length hp
  exact Nat.le_trans hle (Nat.add_le_add_left hconduct.length_le _)

end

theorem campaign_adding {fresh : Nat} {session : Session Campaign} (h : t.campaign target fresh = .ok session)
    (p : Predicate) :
    ∃ session', (t.adding p).campaign target fresh = .ok session' ∧ session.Alongside (IsExtended p) session' := by
  obtain ⟨reason, hr, hc⟩ | ⟨_, _, -, -, hc⟩ | ⟨params, inputs, _, hp, hd, hc⟩ := t.campaign_cases target fresh
  · cases hc.symm.trans h
    refine ⟨_, campaign_of_unresolved (t := t.adding p) hr, .finish ⟨.skipped p.name reason, rfl, ?_⟩⟩
    simp only [all_adding]
    rfl
  · cases hc.symm.trans h
  · cases hc.symm.trans h
    exact ⟨_, campaign_of_drawn (t := t.adding p) hp hd, campaignOn_adding p _ params inputs⟩

theorem campaign_adding_refused {fresh : Nat} {fault : RangeFault} (h : t.campaign target fresh = .error fault)
    (p : Predicate) : (t.adding p).campaign target fresh = .error fault := by
  obtain ⟨params, hp, hd⟩ := refused_of_campaign h
  exact campaign_of_refused (t := t.adding p) hp hd

/-- **How campaigns are conducted**: where every run ends, whatever it gives, a campaign takes place and goes as
`Conduct` says, and one more predicate changes none of its runs and adds one result to its results; unless a draw for
the arguments is refused. An accepted configuration leaves one reason for that, a range of doubles that is too wide. -/
theorem campaign_conduct {sandbox : Sandbox} (hends : ∀ earlier request, (sandbox earlier request).delay.isSome = true)
    (t : Tester) (target : Target) (fresh : Nat) :
    match t.campaign target fresh with
    | .ok session => ∃ c log runs, session.play sandbox none .empty = (.finished c, log) ∧ log.Shows runs ∧
        t.Conduct target fresh runs c ∧
        ∀ p, ∃ session' r, (t.adding p).campaign target fresh = .ok session' ∧ r.property = p.name ∧
          session'.play sandbox none .empty = (.finished { c with results := c.results ++ [r] }, log)
    | .error fault => (∃ params, resolveParameters t.config target.signature = .ok params ∧
          t.drawn fresh params = .error fault) ∧
        (∀ p, (t.adding p).campaign target fresh = .error fault) ∧
        (t.config.validate = .ok () → fault = .tooWide ∧ ¬ t.config.FloatsFit) := by
  cases hc : t.campaign target fresh with
  | ok session =>
    obtain ⟨c, log, hplay⟩ := session.exists_play hends .empty
    have hp : session.Plays sandbox none .empty (.finished c) log := .of_eq hplay
    obtain ⟨runs, hshows, hconduct⟩ := (campaign_always hc).shows hp
    refine ⟨c, log, runs, hplay, hshows, hconduct, fun p => ?_⟩
    obtain ⟨session', hc', halongside⟩ := campaign_adding hc p
    obtain ⟨c', hp', r, hr, rfl⟩ := halongside.of_plays hp
    exact ⟨session', r, hc', hr, hp'.play_eq⟩
  | error fault =>
    obtain ⟨params, hp, hd⟩ := refused_of_campaign hc
    refine ⟨⟨params, hp, hd⟩, campaign_adding_refused hc, fun hvalid => ?_⟩
    have hoverdrawn := (Generator.generate_meets hvalid params t.config.trials).of_error hd
    exact ⟨hoverdrawn.fault_eq, hoverdrawn.not_floatsFit⟩

/-- A sandbox that answers the first batch and returns nothing for the second: idempotence is an error, and the other
two properties hold. -/
theorem campaign_conduct_broken :
    let sandbox : Sandbox := fun earlier request =>
      { result := { RunResult.aborted .subprocess .ok ⟨"", "", none⟩ .zero with
          exception := none
          entryPointFound := some true
          calls := if earlier.isEmpty then request.inputs.map fun x => .returned (x.headD .null) else [] }
        delay := some .zero }
    let t : Tester := ⟨{ trials := 3 }, []⟩
    let target : Target := ⟨"", "f", ⟨[⟨"n", some "int", "POSITIONAL_OR_KEYWORD", false⟩], some "int"⟩⟩
    let outcomes : Played Campaign → List PropertyOutcome := fun
      | .finished c => c.results.map (·.outcome)
      | _ => []
    ∃ session c log runs, t.campaign target 7 = .ok session ∧
      session.play sandbox none .empty = (.finished c, log) ∧ log.Shows runs ∧ t.Conduct target 7 runs c ∧
      log.requests.length = 2 ∧ outcomes (.finished c) = [.holds, .holds, .error] := by
  intro sandbox t target outcomes
  have hplayed : (t.campaign target 7).toOption.map (fun s =>
      ((s.play sandbox none .empty).2.requests.length, outcomes (s.play sandbox none .empty).1))
        = some (2, [.holds, .holds, .error]) := by
    decide +kernel
  have hends : ∀ earlier request, (sandbox earlier request).delay.isSome = true := fun _ _ => rfl
  have h := campaign_conduct hends t target 7
  cases hc : t.campaign target 7 with
  | error fault =>
    rw [hc] at hplayed
    cases hplayed
  | ok session =>
    rw [hc] at h hplayed
    obtain ⟨c, log, runs, hplay, hshows, hconduct, -⟩ := h
    simp only [Except.toOption, Option.map_some, hplay, Option.some.injEq, Prod.mk.injEq] at hplayed
    exact ⟨session, c, log, runs, rfl, hplay, hshows, hconduct, hplayed.1, hplayed.2⟩

end Tester

end Vetting
