import Vetting.Proofs.Property.Conduct
import Vetting.Proofs.Validation.Accounting
import Vetting.Proofs.Validation.Halting

/-!
# What every report has in common

The stages of a report, its run and its property results are filled in by different branches, and a deadline can cut
any of the later stages short. `WellFormed` says how they fit together whatever branches were taken, and how often the
sandbox was asked. It is put together from what a step of each stage can leave behind (`ExecutionStep.isSome_iff`,
`PropertyStep.ne_nil_iff`, `PropertyStep.unhalted_of_lt`). `Unreported` has what can keep a validation under a valid
configuration from giving a report at all, and `validate_eq_error_iff` says that nothing else does.
-/

namespace Vetting

/-! ### Single results -/

/-- A result that gives a reason for being skipped if and only if it is skipped, and then has no findings. -/
structure StageResult.Coherent (r : StageResult) : Prop where
  reason : r.skipReason.isSome = true ↔ r.status = .skipped
  findings : r.status = .skipped → r.findings = []

namespace StageResult

theorem coherent_skipped (stage : StageId) (reason : String) : (skipped stage reason).Coherent :=
  ⟨iff_of_true rfl rfl, fun _ => rfl⟩

theorem coherent_of_ne {r : StageResult} (hr : r.skipReason = none) (hs : r.status ≠ .skipped) : r.Coherent :=
  ⟨iff_of_false (by simp [hr]) hs, fun h => absurd h hs⟩

theorem coherent_ofFindings (stage : StageId) (findings : List Finding) (threshold : Severity)
    (duration : Duration) : (ofFindings stage findings threshold duration).Coherent :=
  coherent_of_ne rfl (ofFindings_status_ne (by simp))

theorem coherent_timedOut (stage : StageId) (deadline duration : Duration) :
    (timedOut stage deadline duration).Coherent :=
  coherent_of_ne rfl nofun

theorem coherent_errored (stage : StageId) (findings : List Finding) (duration : Duration) :
    (errored stage findings duration).Coherent :=
  coherent_of_ne rfl nofun

theorem ofFindings_status_mem (stage : StageId) (findings : List Finding) (threshold : Severity)
    (duration : Duration) : (ofFindings stage findings threshold duration).status ∈ [.passed, .failed] := by
  obtain hp | hf := ofFindings_status
  · exact List.mem_cons.mpr (.inl hp)
  · exact List.mem_cons_of_mem _ (List.mem_singleton.mpr hf)

end StageResult

/-- The status of a stage. -/
def Report.stageStatus? (r : Report) (s : StageId) : Option StageStatus := (r.stage? s).map (·.status)

namespace Validation

variable {config : ValidatorConfig} {around : Surroundings} {source : String} {entryPoint : Option String}

/-! ### Single stages -/

theorem StaticStep.coherent {halted : Option String} {timed : Timed}
    (h : StaticStep config around source halted timed) : timed.result.Coherent := by
  cases h with
  | halted | disabled => exact StageResult.coherent_skipped ..
  | finished => exact StageResult.coherent_ofFindings ..
  | overdue => exact StageResult.coherent_timedOut ..

theorem executionResult_coherent (r : RunResult) : (executionResult config entryPoint r).Coherent := by
  unfold executionResult
  split
  · exact StageResult.coherent_errored ..
  · exact StageResult.coherent_ofFindings ..

theorem ExecutionStep.coherent {elapsed : Duration} {halted : Option String} {executed : Executed}
    (h : ExecutionStep config around source entryPoint elapsed halted executed) : executed.result.Coherent := by
  cases h with
  | halted | disabled => exact StageResult.coherent_skipped ..
  | finished => exact executionResult_coherent _
  | overdue => exact StageResult.coherent_timedOut ..

theorem PropertyStep.coherent {executed : Executed} {halted : Option String} {tested : Tested}
    (h : PropertyStep config around source entryPoint executed halted tested) : tested.result.Coherent := by
  cases h with
  | halted | untested => exact StageResult.coherent_skipped ..
  | finished => exact StageResult.coherent_ofFindings ..
  | overdue => exact StageResult.coherent_timedOut ..

theorem executionResult_status (r : RunResult) :
    (executionResult config entryPoint r).status ∈ [.passed, .failed, .errored] := by
  unfold executionResult
  split
  · simp [StageResult.errored]
  · exact List.mem_append_left [.errored] (StageResult.ofFindings_status_mem ..)

/-- A run came back exactly when the stage tells of it. -/
theorem ExecutionStep.isSome_iff {elapsed : Duration} {halted : Option String} {executed : Executed}
    (h : ExecutionStep config around source entryPoint elapsed halted executed) :
    executed.run?.isSome = true ↔ executed.result.status ∈ [.passed, .failed, .errored] := by
  cases h with
  | halted | disabled | overdue => simp [StageResult.skipped, StageResult.timedOut]
  | finished => exact iff_of_true rfl (executionResult_status _)

theorem ExecutionStep.length_requests_le {elapsed : Duration} {halted : Option String} {executed : Executed}
    (h : ExecutionStep config around source entryPoint elapsed halted executed) :
    executed.log.requests.length ≤ 1 := by
  cases h with
  | halted | disabled => exact Nat.zero_le _
  | finished _ hp =>
    rw [hp.ask_finished.1]
    exact Nat.le_refl _
  | overdue _ _ hp =>
    rw [hp.ask_cancelled.1]
    exact Nat.le_refl _

/-- There are results of properties exactly when the stage judges them. -/
theorem PropertyStep.ne_nil_iff {executed : Executed} {halted : Option String} {tested : Tested}
    (h : PropertyStep config around source entryPoint executed halted tested) :
    (∃ c, tested.campaign? = some c ∧ c.results ≠ []) ↔ tested.result.status ∈ [.passed, .failed] := by
  cases h with
  | halted | untested | overdue => simp [StageResult.skipped, StageResult.timedOut]
  | finished _ hs hp =>
    have hnames := Tester.names_of_campaign hs hp
    exact iff_of_true ⟨_, rfl, hnames.results_ne_nil⟩ (StageResult.ofFindings_status_mem ..)

/-- Property tests have no machinery of their own that could fail. -/
theorem PropertyStep.status_ne_errored {executed : Executed} {halted : Option String} {tested : Tested}
    (h : PropertyStep config around source entryPoint executed halted tested) : tested.result.status ≠ .errored := by
  cases h with
  | halted | untested | overdue => nofun
  | finished => exact StageResult.ofFindings_status_ne (by simp)

theorem PropertyStep.length_requests_le {executed : Executed} {halted : Option String} {tested : Tested}
    (h : PropertyStep config around source entryPoint executed halted tested) :
    tested.log.requests.length ≤ executed.log.requests.length + 2 := by
  cases h with
  | halted | untested => exact Nat.le_add_right ..
  | finished _ hs hp => exact Tester.length_requests_of_campaign hs hp
  | overdue _ hs _ hp => exact Tester.length_requests_of_campaign hs hp

/-- The stage asks for runs only if it is not halted and has something to test. -/
theorem PropertyStep.unhalted_of_lt {executed : Executed} {halted : Option String} {tested : Tested}
    (h : PropertyStep config around source entryPoint executed halted tested)
    (hlt : executed.log.requests.length < tested.log.requests.length) :
    halted = none ∧ ∃ target, propertyTarget config source entryPoint executed.run? = .ok target := by
  cases h with
  | halted | untested => exact absurd hlt (Nat.lt_irrefl _)
  | finished ht => exact ⟨rfl, _, ht⟩
  | overdue ht => exact ⟨rfl, _, ht⟩

/-! ### Whole validations -/

theorem Course.properties_ne_nil_iff {c : Course} :
    c.properties ≠ [] ↔ ∃ campaign, c.fourth.campaign? = some campaign ∧ campaign.results ≠ [] := by
  unfold properties
  cases c.fourth.campaign? <;> simp

/-- Where the property stage is not halted, no result before it stops. -/
theorem Course.Follows.not_stops_of_thirdHalt {c : Course} (h : c.Follows config around source entryPoint)
    (hn : c.thirdHalt config.stopOnFailure = none) :
    ∀ r ∈ c.results.take 3, ¬ Stops config.stopOnFailure r := by
  obtain ⟨-, h2, h3⟩ := h.halts config.stopOnFailure
  rw [h3, h2] at hn
  simp only [Option.orElse_eq_orElse, Option.orElse_eq_or, Option.or_eq_none_iff] at hn
  obtain ⟨⟨n1, n2⟩, n3⟩ := hn
  simpa [results, ← stopReason?_eq_none_iff] using ⟨n1, n2, n3⟩

/-- **How the parts of a report fit together**, and how often the sandbox was asked for them. -/
structure WellFormed (config : ValidatorConfig) (v : Validation) : Prop where
  stages : v.report.stages.map (·.stage) = StageId.pipeline
  coherent : ∀ r ∈ v.report.stages, r.Coherent
  prevalidation : ∃ s, v.report.stageStatus? .prevalidation = some s ∧ s ≠ .skipped
  propertyTesting : ∃ s, v.report.stageStatus? .propertyTesting = some s ∧ s ≠ .errored
  resourceGuard : ∃ s, v.report.stageStatus? .resourceGuard = some s ∧ s ∈ [.passed, .failed]
  execution : v.report.execution.isSome = true ↔
    ∃ s, v.report.stageStatus? .sandboxExecution = some s ∧ s ∈ [.passed, .failed, .errored]
  properties : v.report.properties ≠ [] ↔
    ∃ s, v.report.stageStatus? .propertyTesting = some s ∧ s ∈ [.passed, .failed]
  requests : v.log.requests.length ≤ 3
  /-- Only a first run that can be tested is followed by others, where nothing is stopped. The results of the log are
  latest first. -/
  followed : 2 ≤ v.log.requests.length → config.enablePropertyTests = true ∧
    (∀ r ∈ v.report.stages.take 3, ¬ Stops config.stopOnFailure r) ∧
      ∃ run, v.report.execution = some run ∧ v.log.results.getLast? = some run ∧ run.IsTestable

theorem wellFormed {v : Validation} (h : validate config around source entryPoint = .ok v) :
    WellFormed config v := by
  obtain ⟨-, hf, hv⟩ := of_validate h
  obtain ⟨s1, -, s3, s4, s5⟩ := stage?_of_validate h
  have hstages := stages_of_validate h
  have hrun : v.report.execution = v.course.third.run? := by rw [hv]; rfl
  have hproperties : v.report.properties = v.course.properties := by rw [hv]; rfl
  have hasked := hf.third.length_requests_le
  constructor
  case stages =>
    rw [hstages, List.map_append, hf.map_stage]
    rfl
  case coherent =>
    rw [hstages]
    simp only [Course.results, List.cons_append, List.nil_append, List.forall_mem_cons]
    refine ⟨?_, hf.second.coherent, hf.third.coherent, hf.fourth.coherent, ?_, List.forall_mem_nil _⟩
    · rw [hf.first]
      exact StageResult.coherent_ofFindings ..
    · exact StageResult.coherent_ofFindings ..
  case prevalidation =>
    rw [Report.stageStatus?, s1, hf.first]
    exact ⟨_, rfl, StageResult.ofFindings_status_ne (by simp)⟩
  case propertyTesting =>
    rw [Report.stageStatus?, s4]
    exact ⟨_, rfl, hf.fourth.status_ne_errored⟩
  case resourceGuard =>
    rw [Report.stageStatus?, s5]
    exact ⟨_, rfl, StageResult.ofFindings_status_mem ..⟩
  case execution =>
    rw [hrun, hf.third.isSome_iff, Report.stageStatus?, s3]
    simp
  case properties =>
    rw [hproperties, Course.properties_ne_nil_iff, hf.fourth.ne_nil_iff, Report.stageStatus?, s4]
    simp
  case requests =>
    have hle := hf.fourth.length_requests_le
    exact Nat.le_trans hle (Nat.add_le_add_right hasked 2)
  case followed =>
    intro htwo
    obtain ⟨hn, target, ht⟩ := hf.fourth.unhalted_of_lt (Nat.lt_of_le_of_lt hasked htwo)
    obtain ⟨he, run, hr, htestable⟩ := isTestable_of_propertyTarget ht
    refine ⟨he, ?_, run, hrun.trans hr, ?_, htestable⟩
    · rw [hstages, List.take_append_of_le_length (by simp [Course.results])]
      exact hf.not_stops_of_thirdHalt hn
    · obtain ⟨batches, hb⟩ := hf.fourth.batches
      rw [log, hb.results_eq, hf.third.results_eq, hr]
      exact List.getLast?_concat

/-! ### Validations without a report -/

/-- The halt reason behind the first stage. -/
def firstHalt (config : ValidatorConfig) (source : String) : Option String :=
  firstHaltReason? config.stopOnFailure (Prevalidation.run config.patterns config.prevalidation
    config.thresholds.prevalidation source.toList)

/-- The first two stages stop nothing. -/
structure Unhalted (config : ValidatorConfig) (around : Surroundings) (source : String) : Prop where
  first : firstHalt config source = none
  second : haltReason? config.stopOnFailure (staticStage config around source none).result = none

/-- Nothing is stopped before the property tests, and the execution has left something to test. -/
structure TestsAreDue (config : ValidatorConfig) (around : Surroundings) (source : String)
    (entryPoint : Option String) (executed : Executed) (target : Target) : Prop where
  unhalted : Unhalted config around source
  third : executionStage config around source entryPoint (staticStage config around source none).elapsed none =
    .ok executed
  goesOn : haltReason? config.stopOnFailure executed.result = none
  testable : propertyTarget config source entryPoint executed.run? = .ok target

/-- Why a validation under a valid configuration gives no report. -/
inductive Unreported (config : ValidatorConfig) (around : Surroundings) (source : String)
    (entryPoint : Option String) : ValidationError → Prop
  /-- The run of the source never ends, and nothing is there to end it. -/
  | endlessRun : Unhalted config around source → config.enableSandbox = true → config.overallDeadline = none →
      (around.sandbox [] ⟨source, entryPoint, []⟩).delay = none → Unreported config around source entryPoint .endless
  /-- Arguments for the parameters of the entry point cannot be drawn from the configured ranges. -/
  | undrawable : TestsAreDue config around source entryPoint executed target →
      Tester.resolveParameters config.propertyTests target.signature = .ok params →
      Tester.drawn ⟨config.propertyTests, around.predicates⟩ around.freshSeed params = .error cause →
      Unreported config around source entryPoint (.undrawable cause)
  /-- The last batch of calls that the property tests ask for never ends, and nothing is there to end it. -/
  | endlessBatch {log : Log} : TestsAreDue config around source entryPoint executed target →
      Tester.campaign ⟨config.propertyTests, around.predicates⟩ target around.freshSeed = .ok session →
      session.Plays around.sandbox config.overallDeadline executed.log .stuck log →
      config.overallDeadline = none → log.requests = batch :: earlier → (around.sandbox earlier batch).delay = none →
      Unreported config around source entryPoint .endless

theorem executionStage_eq_error_iff {elapsed : Duration} {halted : Option String} {e : ValidationError} :
    executionStage config around source entryPoint elapsed halted = .error e ↔
      halted = none ∧ config.enableSandbox = true ∧ e = .endless ∧ config.overallDeadline = none ∧
        (around.sandbox [] ⟨source, entryPoint, []⟩).delay = none := by
  constructor
  · intro h
    cases halted with
    | some reason => cases h
    | none =>
      simp only [executionStage] at h
      split at h
      · cases h
      rename_i he
      simp only [Bool.not_eq_true', Bool.not_eq_false] at he
      split at h
      · cases h
      · cases h
      · cases h
        obtain ⟨hd, hdelay⟩ := Session.Plays.ask_stuck_iff.mp ⟨_, .of_eq ‹_›⟩
        exact ⟨rfl, he, rfl, hd, hdelay⟩
  · rintro ⟨rfl, he, rfl, hd, hdelay⟩
    have hstuck : ∃ log, Session.Plays around.sandbox config.overallDeadline (.ask ⟨source, entryPoint, []⟩)
        (startLog elapsed) .stuck log :=
      Session.Plays.ask_stuck_iff.mpr ⟨hd, hdelay⟩
    obtain ⟨log, hp⟩ := hstuck
    have hplay := hp.play_eq
    simp only [startLog] at hplay
    simp only [executionStage, he, Bool.not_true, Bool.false_eq_true, if_false, hplay]

theorem propertyStage_eq_error_iff {executed : Executed} {halted : Option String} {e : ValidationError} :
    propertyStage config around source entryPoint executed halted = .error e ↔
      halted = none ∧ ∃ target, propertyTarget config source entryPoint executed.run? = .ok target ∧
        ((∃ cause, Tester.campaign ⟨config.propertyTests, around.predicates⟩ target around.freshSeed = .error cause ∧
            e = .undrawable cause) ∨
          ∃ session log, Tester.campaign ⟨config.propertyTests, around.predicates⟩ target around.freshSeed
              = .ok session ∧
            session.Plays around.sandbox config.overallDeadline executed.log .stuck log ∧ e = .endless) := by
  constructor
  · intro h
    cases halted with
    | some reason => cases h
    | none =>
      simp only [propertyStage] at h
      split at h
      · cases h
      rename_i target ht
      refine ⟨rfl, target, ht, ?_⟩
      cases hc : Tester.campaign ⟨config.propertyTests, around.predicates⟩ target around.freshSeed with
      | error cause =>
        rw [hc] at h
        cases h
        exact .inl ⟨cause, rfl, rfl⟩
      | ok session =>
        obtain hs | ⟨session', hs, h⟩ := of_bind_eq_error h
        · rw [hc] at hs
          cases hs
        rw [hc] at hs
        cases hs
        split at h
        · cases h
        · cases h
        · cases h
          exact .inr ⟨_, _, rfl, .of_eq ‹_›, rfl⟩
  · rintro ⟨rfl, target, ht, ⟨cause, hc, rfl⟩ | ⟨session, log, hc, hp, rfl⟩⟩
    · simp only [propertyStage, ht, hc]
      rfl
    · have hbegun : (Except.ok session).mapError ValidationError.undrawable = .ok session := rfl
      simp only [propertyStage, ht, hc, hbegun, bind, Except.bind, hp.play_eq]
      rfl

theorem unhalted_iff :
    Unhalted config around source ↔
      (firstHalt config source <|> haltReason? config.stopOnFailure
        (staticStage config around source (firstHalt config source)).result) = none := by
  rw [Option.orElse_eq_orElse, Option.orElse_eq_or, Option.or_eq_none_iff]
  constructor
  · rintro ⟨h1, h2⟩
    exact ⟨h1, by rw [h1, h2]⟩
  · rintro ⟨h1, h2⟩
    rw [h1] at h2
    exact ⟨h1, h2⟩

theorem Unhalted.courseRun_eq (h : Unhalted config around source) :
    Course.run config around source entryPoint = (do
      let second := staticStage config around source none
      let third ← executionStage config around source entryPoint second.elapsed none
      let fourth ← propertyStage config around source entryPoint third
        (haltReason? config.stopOnFailure third.result)
      return ⟨Prevalidation.run config.patterns config.prevalidation config.thresholds.prevalidation source.toList,
        second, third, fourth⟩) := by
  have hfirst := h.first
  have hsecond := h.second
  unfold firstHalt at hfirst
  simp only [Course.run, hfirst, hsecond, Option.orElse_eq_orElse, Option.orElse_eq_or, Option.none_or]

/-- Where one of the first two stages stops everything, nothing is left that could keep a course from its end. -/
theorem exists_courseRun_of_not_unhalted (h : ¬ Unhalted config around source) :
    ∃ c, Course.run config around source entryPoint = .ok c := by
  rw [unhalted_iff, ← ne_eq, Option.ne_none_iff_exists'] at h
  obtain ⟨reason, hreason⟩ := h
  unfold firstHalt at hreason
  simp only [Course.run, hreason]
  exact ⟨_, rfl⟩

theorem TestsAreDue.courseRun_eq_error {executed : Executed} {target : Target} {e : ValidationError}
    (h : TestsAreDue config around source entryPoint executed target)
    (hp : propertyStage config around source entryPoint executed none = .error e) :
    Course.run config around source entryPoint = .error e := by
  simp only [h.unhalted.courseRun_eq, h.third, h.goesOn, hp, bind, Except.bind]

/-- What keeps a course from its end, and nothing else does. -/
theorem courseRun_eq_error_iff {e : ValidationError} :
    Course.run config around source entryPoint = .error e ↔ Unreported config around source entryPoint e := by
  constructor
  · intro h
    by_cases hu : Unhalted config around source
    case neg =>
      obtain ⟨c, hc⟩ := exists_courseRun_of_not_unhalted hu
      cases hc.symm.trans h
    rw [hu.courseRun_eq] at h
    obtain hx | ⟨executed, hx, h⟩ := of_bind_eq_error h
    · obtain ⟨-, he, rfl, hd, hdelay⟩ := executionStage_eq_error_iff.mp hx
      exact .endlessRun hu he hd hdelay
    obtain hp | ⟨tested, -, h⟩ := of_bind_eq_error h
    · obtain ⟨hn, target, ht, hcause⟩ := propertyStage_eq_error_iff.mp hp
      have hdue : TestsAreDue config around source entryPoint executed target := ⟨hu, hx, hn, ht⟩
      obtain ⟨cause, hc, rfl⟩ | ⟨session, log, hc, hplays, rfl⟩ := hcause
      · obtain ⟨params, hparams, hd⟩ := Tester.refused_of_campaign hc
        exact .undrawable hdue hparams hd
      · obtain ⟨hd, batch, earlier, hlog, hdelay⟩ := hplays.endless_of_stuck
        exact .endlessBatch hdue hc hplays hd hlog hdelay
    · cases h
  · intro h
    cases h with
    | endlessRun hu he hd hdelay =>
      rw [hu.courseRun_eq]
      simp only [executionStage_eq_error_iff.mpr ⟨rfl, he, rfl, hd, hdelay⟩]
      rfl
    | undrawable hdue hparams hd =>
      refine hdue.courseRun_eq_error (propertyStage_eq_error_iff.mpr ⟨rfl, _, hdue.testable, .inl ⟨_, ?_, rfl⟩⟩)
      exact Tester.campaign_of_refused hparams hd
    | endlessBatch hdue hc hplays =>
      exact hdue.courseRun_eq_error
        (propertyStage_eq_error_iff.mpr ⟨rfl, _, hdue.testable, .inr ⟨_, _, hc, hplays, rfl⟩⟩)

theorem validate_eq_error_iff {e : ValidationError} (hc : config.validate = .ok ()) :
    validate config around source entryPoint = .error e ↔ Unreported config around source entryPoint e := by
  rw [← courseRun_eq_error_iff, validate_eq_run hc, run]
  cases Course.run config around source entryPoint with
  | ok c =>
    constructor
    · intro h
      cases h
    · intro h
      cases h
  | error e' =>
    constructor
    · intro h
      cases h
      rfl
    · intro h
      cases h
      rfl

/-- **A valid configuration gives a report that is well-formed**, unless a run never ends or arguments cannot be drawn;
and it gives none exactly then. -/
theorem wellFormed_or_unreported (around : Surroundings) (source : String) (entryPoint : Option String)
    (hc : config.validate = .ok ()) :
    (∃ v, validate config around source entryPoint = .ok v ∧ WellFormed config v ∧
        ∀ e, ¬ Unreported config around source entryPoint e) ∨
      ∃ e, validate config around source entryPoint = .error e ∧ Unreported config around source entryPoint e := by
  cases h : validate config around source entryPoint with
  | ok v =>
    refine .inl ⟨v, rfl, wellFormed h, fun e he => ?_⟩
    cases h.symm.trans ((validate_eq_error_iff hc).mpr he)
  | error e => exact .inr ⟨e, rfl, (validate_eq_error_iff hc).mp h⟩

/-- A run that can be tested, and two batches behind it. -/
theorem wellFormed_identity :
    let config : ValidatorConfig := { patterns := .empty, propertyTests := { trials := 1 } }
    let batch (calls : Nat) : Reply :=
      ⟨{ cleanRun with calls := List.replicate calls (.returned (.int 0)) }, some .zero⟩
    let around := scripted (scriptedSandbox [⟨cleanRun, some .zero⟩, batch 2] (batch 1))
    config.validate = .ok () ∧ ∃ v, validate config around "def f(x):\n    return x\n" (some "f") = .ok v ∧
      WellFormed config v ∧ v.log.requests.length = 3 := by
  intro config batch around
  have h : (validate config around "def f(x):\n    return x\n" (some "f")).toOption.map
      (fun v => v.log.requests.length) = some 3 := by
    decide +kernel
  obtain ⟨v, hv, hl⟩ := exists_of_toOption_map h
  have hc : config.validate = .ok () := (of_validate hv).1
  obtain ⟨v', hv', hw, -⟩ | ⟨e, he, -⟩ :=
    wellFormed_or_unreported around "def f(x):\n    return x\n" (some "f") hc
  · cases hv.symm.trans hv'
    exact ⟨hc, v, hv, hw, hl⟩
  · cases hv.symm.trans he

end Validation

end Vetting
