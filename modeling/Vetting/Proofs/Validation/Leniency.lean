import Vetting.Proofs.Validation.Safety

/-!
# Stopping less and failing less

Two validations of one source, under configurations that differ only in whether failures stop the pipeline, or only
in the thresholds. `Course.IsRun` has the equations of a course, so two courses are compared stage by stage: as long as
nothing has failed they are equal, whatever the flag says, and a course in which nothing fails stays as it is under
higher thresholds (`Course.IsRun.raised`). So stopping only cuts a validation short (`truncates`), and higher
thresholds never reject what was accepted (`validate_of_thresholds_le`).
-/

namespace Vetting

namespace Thresholds

/-- No threshold is above the other one of its stage. -/
structure IsBelow (t t' : Thresholds) : Prop where
  prevalidation : t.prevalidation ≤ t'.prevalidation
  staticAnalysis : t.staticAnalysis ≤ t'.staticAnalysis
  sandbox : t.sandbox ≤ t'.sandbox
  propertyTesting : t.propertyTesting ≤ t'.propertyTesting
  resourceGuard : t.resourceGuard ≤ t'.resourceGuard

instance : LE Thresholds := ⟨IsBelow⟩

end Thresholds

/-! ### Results that fail -/

namespace StageResult

/-- The stage failed, could not do its work, or was cut short. -/
def Fails (r : StageResult) : Prop :=
  r.status = .failed ∨ r.status = .errored ∨ r.status = .timedOut

theorem not_fails_iff {r : StageResult} : ¬ r.Fails ↔ r.status = .passed ∨ r.status = .skipped := by
  unfold Fails
  cases r.status <;> simp

/-- Findings that do not reach a threshold do not reach a higher one. -/
theorem ofFindings_of_le {stage : StageId} {findings : List Finding} {threshold threshold' : Severity}
    {duration : Duration} (hle : threshold ≤ threshold')
    (h : ¬ (ofFindings stage findings threshold duration).Fails) :
    ofFindings stage findings threshold' duration = ofFindings stage findings threshold duration := by
  have hbelow : ∀ t, threshold ≤ t → reaches t findings = false := by
    intro t ht
    rw [reaches, List.any_eq_false]
    intro f hf hreached
    refine h (.inl (ofFindings_status_eq_failed_iff.mpr ⟨f, hf, ?_⟩))
    exact Severity.le_trans ht (of_decide_eq_true hreached)
  rw [ofFindings, ofFindings, hbelow _ hle, hbelow _ (Severity.le_refl _)]

end StageResult

/-- Results that agree up to the first one that fails, and are as many. -/
inductive SameUntilFailure : List StageResult → List StageResult → Prop
  | nil : SameUntilFailure [] []
  | cons : SameUntilFailure rs rs' → SameUntilFailure (r :: rs) (r :: rs')
  | fails : r.Fails → rs.length = rs'.length → SameUntilFailure (r :: rs) (r :: rs')

theorem SameUntilFailure.refl (rs : List StageResult) : SameUntilFailure rs rs := by
  induction rs with
  | nil => exact .nil
  | cons r rs ih => exact .cons ih

theorem Report.passed_iff {stages : List StageResult} {totalDuration : Duration} {sourceDigest : String}
    {entryPoint : Option String} {execution : Option RunResult} {properties : List PropertyResult}
    {generatedAt : Timestamp} :
    (ofStages stages totalDuration sourceDigest entryPoint execution properties generatedAt).passed = true ↔
      ∀ r ∈ stages, ¬ r.Fails := by
  have hcode : ∀ v : Verdict, v = .passed ↔ v.exitCode = 0 := by
    intro v
    cases v <;> simp [Verdict.exitCode]
  simp only [passed, ofStages, decide_eq_true_eq, hcode, Verdict.exitCode_ofStages_eq_zero_iff,
    StageResult.not_fails_iff]

namespace Validation

variable {config : ValidatorConfig} {around : Surroundings} {source : String} {entryPoint : Option String}

theorem bind_eq_ok {x : Except ε α} {f : α → Except ε β} {a : α} {b : β} (h : x = .ok a) (h' : f a = .ok b) :
    (x >>= f) = .ok b := by
  rw [h]
  exact h'

/-! ### Halt reasons -/

/-- A result that does not fail stops nothing, whatever the flag. -/
theorem haltReason?_of_not_fails {r : StageResult} (stop : Bool) (h : ¬ r.Fails) : haltReason? stop r = none := by
  obtain hs | hs := StageResult.not_fails_iff.mp h <;> simp [haltReason?, hs, StageStatus.haltsPipeline]

theorem haltReason?_of_fails {r : StageResult} (h : r.Fails) : ∃ reason, haltReason? true r = some reason := by
  obtain hs | hs | hs := h <;> simp [haltReason?, hs, StageStatus.haltsPipeline]

theorem firstHaltReason?_of_fails {r : StageResult} (h : r.Fails) :
    ∃ reason, firstHaltReason? true r = some reason := by
  unfold firstHaltReason?
  split
  · exact ⟨_, rfl⟩
  · exact haltReason?_of_fails h

/-! ### Stages under higher thresholds -/

section
variable {thresholds : Thresholds} {halted : Option String}

theorem staticStage_raised (hle : config.thresholds ≤ thresholds)
    (h : ¬ (staticStage config around source halted).result.Fails) :
    staticStage { config with thresholds := thresholds } around source halted
      = staticStage config around source halted := by
  cases halted with
  | some reason => rfl
  | none =>
    simp only [staticStage] at h ⊢
    split
    · rfl
    · rename_i he
      rw [if_neg he] at h
      split
      · rename_i hd
        simp only [hd] at h
        rw [Analysis.stageResult, StageResult.ofFindings_of_le hle.staticAnalysis h]
        rfl
      · rename_i deadline hd
        simp only [hd] at h
        split
        · rename_i hb
          rw [if_pos hb] at h
          rw [Analysis.stageResult, StageResult.ofFindings_of_le hle.staticAnalysis h]
          rfl
        · rfl

theorem executionResult_raised {r : RunResult} (hle : config.thresholds ≤ thresholds)
    (h : ¬ (executionResult config entryPoint r).Fails) :
    executionResult { config with thresholds := thresholds } entryPoint r
      = executionResult config entryPoint r := by
  unfold executionResult at h ⊢
  split
  · rfl
  · rename_i hm
    rw [if_neg hm] at h
    exact StageResult.ofFindings_of_le hle.sandbox h

theorem executionStage_raised {elapsed : Duration} {executed : Executed} (hle : config.thresholds ≤ thresholds)
    (h : executionStage config around source entryPoint elapsed halted = .ok executed)
    (hf : ¬ executed.result.Fails) :
    executionStage { config with thresholds := thresholds } around source entryPoint elapsed
      halted = .ok executed := by
  cases halted with
  | some reason => exact h
  | none =>
    simp only [executionStage] at h ⊢
    split at h
    · rename_i he
      rw [if_pos he]
      exact h
    · rename_i he
      rw [if_neg he]
      split at h
      · cases h
        rw [executionResult_raised hle hf]
      · exact h
      · cases h

/-- What there is to test does not depend on the thresholds. -/
theorem propertyTarget_raised (run? : Option RunResult) :
    propertyTarget { config with thresholds := thresholds } source entryPoint run?
      = propertyTarget config source entryPoint run? := rfl

theorem propertyStage_raised {executed : Executed} {tested : Tested} (hle : config.thresholds ≤ thresholds)
    (h : propertyStage config around source entryPoint executed halted = .ok tested) (hf : ¬ tested.result.Fails) :
    propertyStage { config with thresholds := thresholds } around source entryPoint executed
      halted = .ok tested := by
  cases halted with
  | some reason => exact h
  | none =>
    simp only [propertyStage, propertyTarget_raised] at h ⊢
    split at h
    · exact h
    · obtain ⟨session, hs, h⟩ := exists_of_bind_eq_ok h
      refine bind_eq_ok hs ?_
      split at h
      · cases h
        rw [Campaign.stageResult, StageResult.ofFindings_of_le hle.propertyTesting hf]
        rfl
      · exact h
      · cases h

end

theorem PropertyStep.requests_suffix {executed : Executed} {halted : Option String} {tested : Tested}
    (h : PropertyStep config around source entryPoint executed halted tested) :
    executed.log.requests <:+ tested.log.requests := by
  cases h with
  | halted | untested => exact List.suffix_refl _
  | finished _ _ hp | overdue _ _ _ hp => exact hp.requests_suffix

/-! ### The equations of a course -/

namespace Course

/-- Every stage of the course is what its function gives, under the halt reason that the results before it leave when
failures stop the pipeline or do not. -/
structure IsRun (config : ValidatorConfig) (stop : Bool) (around : Surroundings) (source : String)
    (entryPoint : Option String) (c : Course) : Prop where
  first : c.first = Prevalidation.run config.patterns config.prevalidation config.thresholds.prevalidation
    source.toList
  second : c.second = staticStage config around source (firstHaltReason? stop c.first)
  third : executionStage config around source entryPoint c.second.elapsed (c.secondHalt stop) = .ok c.third
  fourth : propertyStage config around source entryPoint c.third (c.thirdHalt stop) = .ok c.fourth

variable {c c' : Course} {stop stop' : Bool}

theorem run_eq_ok_iff :
    run { config with stopOnFailure := stop } around source entryPoint = .ok c ↔
      c.IsRun config stop around source entryPoint := by
  constructor
  · intro h
    unfold run at h
    obtain ⟨third, ht, h⟩ := exists_of_bind_eq_ok h
    obtain ⟨fourth, hf, h⟩ := exists_of_bind_eq_ok h
    cases h
    exact ⟨rfl, rfl, ht, hf⟩
  · intro h
    obtain ⟨first, second, third, fourth⟩ := c
    obtain ⟨hfirst, hsecond, hthird, hfourth⟩ := h
    simp only at hfirst hsecond
    subst hsecond hfirst
    exact bind_eq_ok hthird (bind_eq_ok hfourth rfl)

namespace IsRun

variable (h : c.IsRun config stop around source entryPoint)
include h

/-! As long as nothing fails there is no halt reason, whatever the flag. -/

theorem firstHalt_eq_none (h1 : ¬ c.first.Fails) (flag : Bool) : firstHaltReason? flag c.first = none := by
  rw [h.first] at h1 ⊢
  exact firstHaltReason?_of_passed flag
    ((StageResult.not_fails_iff.mp h1).resolve_right (StageResult.ofFindings_status_ne (by simp)))

theorem secondHalt_eq_none (h1 : ¬ c.first.Fails) (h2 : ¬ c.second.result.Fails) (flag : Bool) :
    c.secondHalt flag = none := by
  rw [secondHalt, h.firstHalt_eq_none h1, haltReason?_of_not_fails flag h2]
  rfl

theorem thirdHalt_eq_none (h1 : ¬ c.first.Fails) (h2 : ¬ c.second.result.Fails) (h3 : ¬ c.third.result.Fails)
    (flag : Bool) : c.thirdHalt flag = none := by
  rw [thirdHalt, h.secondHalt_eq_none h1 h2, haltReason?_of_not_fails flag h3]
  rfl

/-- A course in which nothing fails, up to the last stage at least, does not depend on the flag. -/
theorem of_not_fails (h1 : ¬ c.first.Fails) (h2 : ¬ c.second.result.Fails) (h3 : ¬ c.third.result.Fails)
    (flag : Bool) : c.IsRun config flag around source entryPoint where
  first := h.first
  second := by
    rw [h.firstHalt_eq_none h1, ← h.firstHalt_eq_none h1 stop]
    exact h.second
  third := by
    rw [h.secondHalt_eq_none h1 h2, ← h.secondHalt_eq_none h1 h2 stop]
    exact h.third
  fourth := by
    rw [h.thirdHalt_eq_none h1 h2 h3, ← h.thirdHalt_eq_none h1 h2 h3 stop]
    exact h.fourth

/-- A course in which nothing fails is the same under higher thresholds. -/
theorem raised {thresholds : Thresholds} (hle : config.thresholds ≤ thresholds) (hg : ∀ r ∈ c.results, ¬ r.Fails) :
    c.IsRun { config with thresholds := thresholds } stop around source entryPoint := by
  simp only [results, List.forall_mem_cons] at hg
  obtain ⟨h1, h2, h3, h4, -⟩ := hg
  refine ⟨?_, ?_, executionStage_raised hle h.third h3, propertyStage_raised hle h.fourth h4⟩
  · rw [h.first] at h1 ⊢
    exact (StageResult.ofFindings_of_le hle.prevalidation h1).symm
  · rw [h.second] at h2
    rw [staticStage_raised hle h2]
    exact h.second

end IsRun

/-! ### Two courses that differ in the flag -/

section
variable (h : c.IsRun config stop around source entryPoint) (h' : c'.IsRun config stop' around source entryPoint)
include h h'

theorem IsRun.first_eq : c.first = c'.first := h.first.trans h'.first.symm

theorem IsRun.second_eq (h1 : ¬ c.first.Fails) : c.second = c'.second := by
  have hfirst := h.first_eq h'
  rw [h.second, h.firstHalt_eq_none h1, h'.second, h'.firstHalt_eq_none (hfirst ▸ h1)]

theorem IsRun.third_eq (h1 : ¬ c.first.Fails) (h2 : ¬ c.second.result.Fails) : c.third = c'.third := by
  have hfirst := h.first_eq h'
  have hsecond := h.second_eq h' h1
  have hthird := h.third
  have hthird' := h'.third
  rw [h.secondHalt_eq_none h1 h2, hsecond] at hthird
  rw [h'.secondHalt_eq_none (hfirst ▸ h1) (hsecond ▸ h2)] at hthird'
  exact Except.ok.inj (hthird.symm.trans hthird')

theorem IsRun.eq_of_not_fails (h1 : ¬ c.first.Fails) (h2 : ¬ c.second.result.Fails) (h3 : ¬ c.third.result.Fails) :
    c = c' := by
  have hrun := run_eq_ok_iff.mpr (h.of_not_fails h1 h2 h3 stop')
  exact Except.ok.inj (hrun.symm.trans (run_eq_ok_iff.mpr h'))

/-- The results of the two courses agree up to the first failure, if those of a stage behind them do. -/
theorem IsRun.sameUntilFailure {last last' : StageResult} (hlast : c = c' → last = last') :
    SameUntilFailure (c.results ++ [last]) (c'.results ++ [last']) := by
  by_cases h1 : c.first.Fails
  · rw [results, results, ← h.first_eq h']
    exact .fails h1 rfl
  by_cases h2 : c.second.result.Fails
  · rw [results, results, ← h.first_eq h', ← h.second_eq h' h1]
    exact .cons (.fails h2 rfl)
  by_cases h3 : c.third.result.Fails
  · rw [results, results, ← h.first_eq h', ← h.second_eq h' h1, ← h.third_eq h' h1 h2]
    exact .cons (.cons (.fails h3 rfl))
  have heq := h.eq_of_not_fails h' h1 h2 h3
  rw [← heq, hlast heq]
  exact .refl _

end

/-- Stopping never loses a course: where something fails the stages behind it need nothing. -/
theorem IsRun.exists_stopped (h : c.IsRun config false around source entryPoint) :
    ∃ c', IsRun config true around source entryPoint c' := by
  by_cases h1 : c.first.Fails
  · obtain ⟨reason, hr⟩ := firstHaltReason?_of_fails h1
    let third : Executed := ⟨.skipped .sandboxExecution reason, none, startLog .zero⟩
    refine ⟨⟨c.first, ⟨.skipped .staticAnalysis reason, .zero⟩, third,
      ⟨.skipped .propertyTesting reason, none, third.log⟩⟩, h.first, ?_, ?_, ?_⟩
    · rw [hr]
      rfl
    · rw [secondHalt, hr]
      rfl
    · rw [thirdHalt, secondHalt, hr]
      rfl
  have hsecond := h.second
  rw [h.firstHalt_eq_none h1, ← h.firstHalt_eq_none h1 true] at hsecond
  by_cases h2 : c.second.result.Fails
  · obtain ⟨reason, hr⟩ := haltReason?_of_fails h2
    let third : Executed := ⟨.skipped .sandboxExecution reason, none, startLog c.second.elapsed⟩
    refine ⟨⟨c.first, c.second, third, ⟨.skipped .propertyTesting reason, none, third.log⟩⟩, h.first, hsecond,
      ?_, ?_⟩
    · rw [secondHalt, h.firstHalt_eq_none h1, hr]
      rfl
    · rw [thirdHalt, secondHalt, h.firstHalt_eq_none h1, hr]
      rfl
  have hthird := h.third
  rw [h.secondHalt_eq_none h1 h2, ← h.secondHalt_eq_none h1 h2 true] at hthird
  by_cases h3 : c.third.result.Fails
  · obtain ⟨reason, hr⟩ := haltReason?_of_fails h3
    refine ⟨⟨c.first, c.second, c.third, ⟨.skipped .propertyTesting reason, none, c.third.log⟩⟩, h.first, hsecond,
      hthird, ?_⟩
    have hnone := h.secondHalt_eq_none h1 h2 true
    rw [secondHalt] at hnone
    rw [thirdHalt, secondHalt, hnone, hr]
    rfl
  exact ⟨c, h.of_not_fails h1 h2 h3 true⟩

theorem exists_secondHalt (hf : c.first.Fails ∨ c.second.result.Fails) : ∃ reason, c.secondHalt true = some reason := by
  unfold secondHalt
  cases hfirst : firstHaltReason? true c.first with
  | some reason => exact ⟨reason, rfl⟩
  | none =>
    obtain h1 | h2 := hf
    · obtain ⟨reason, hr⟩ := firstHaltReason?_of_fails h1
      cases hfirst.symm.trans hr
    · obtain ⟨reason, hr⟩ := haltReason?_of_fails h2
      exact ⟨reason, hr⟩

/-- All that a stopped course asks of the sandbox, the other one asks as well, in the same order. -/
theorem IsRun.requests_suffix (h : c.IsRun config true around source entryPoint)
    (h' : c'.IsRun config false around source entryPoint) :
    c.fourth.log.requests <:+ c'.fourth.log.requests := by
  have hthird := executionStep h.third
  have hfourth := propertyStep h.fourth
  by_cases hf : c.first.Fails ∨ c.second.result.Fails
  · -- nothing is run at all
    obtain ⟨reason, hr⟩ := exists_secondHalt hf
    rw [hr] at hthird
    rw [thirdHalt, hr] at hfourth
    rw [hfourth.eq_skipped, hthird.eq_skipped]
    exact List.nil_suffix
  obtain ⟨h1, h2⟩ := not_or.mp hf
  by_cases h3 : c.third.result.Fails
  · obtain ⟨reason, hr⟩ := haltReason?_of_fails h3
    rw [thirdHalt, h.secondHalt_eq_none h1 h2, hr] at hfourth
    rw [hfourth.eq_skipped, h.third_eq h' h1 h2]
    exact (propertyStep h'.fourth).requests_suffix
  · exact h.eq_of_not_fails h' h1 h2 h3 ▸ List.suffix_refl _

end Course

/-! ### Validations -/

/-- The report of a validation comes from the course of its stages. -/
theorem validate_eq_ok_iff (config : ValidatorConfig) (stop : Bool) {v : Validation} :
    validate { config with stopOnFailure := stop } around source entryPoint = .ok v ↔
      config.validate = .ok () ∧ v.course.IsRun config stop around source entryPoint ∧
        v = conclude config around source entryPoint v.course := by
  constructor
  · intro h
    unfold validate at h
    obtain ⟨_, hc, h⟩ := exists_of_bind_eq_ok h
    obtain ⟨c, hr, rfl⟩ := exists_of_map_eq_ok h
    exact ⟨eq_ok_of_mapError hc, Course.run_eq_ok_iff.mp hr, rfl⟩
  · rintro ⟨hc, hr, hv⟩
    have hvalid : ({ config with stopOnFailure := stop } : ValidatorConfig).validate = .ok () := hc
    rw [validate_eq_run hvalid, run, Course.run_eq_ok_iff.mpr hr]
    exact congrArg Except.ok hv.symm

/-- What two validations have in common of which only one stops on failures. -/
structure Truncates (stopped full : Except ValidationError Validation) : Prop where
  /-- Stopping loses no report. -/
  reported : ∀ v', full = .ok v' → ∃ v, stopped = .ok v
  /-- The stages agree up to the first one that fails, in whichever of the two reports. -/
  stages : ∀ v v', stopped = .ok v → full = .ok v' → SameUntilFailure v.report.stages v'.report.stages
  /-- All that is asked of the sandbox before the stop is asked in the same order without it. -/
  requests : ∀ v v', stopped = .ok v → full = .ok v' → v.log.requests <:+ v'.log.requests
  /-- Whether the source is accepted does not depend on the flag. -/
  passed : (∃ v, stopped = .ok v ∧ v.report.passed = true) ↔ ∃ v', full = .ok v' ∧ v'.report.passed = true
  /-- Where none of the stages before the resource guard fails, in one of the two, nothing differs. -/
  same : ∀ v, stopped = .ok v ∨ full = .ok v → (∀ r ∈ v.report.stages.take 4, ¬ r.Fails) → stopped = full

theorem not_fails_of_passed {v : Validation} (h : validate config around source entryPoint = .ok v)
    (hp : v.report.passed = true) : ∀ r ∈ v.report.stages, ¬ r.Fails := by
  rw [(of_validate h).2.2] at hp ⊢
  exact Report.passed_iff.mp hp

theorem take_stages_of_validate {v : Validation} (h : validate config around source entryPoint = .ok v) :
    v.report.stages.take 4 = v.course.results := by
  rw [stages_of_validate h]
  rfl

/-- A validation in which nothing fails before the resource guard does not depend on the flag. -/
theorem validate_of_not_fails {stop : Bool} {v : Validation}
    (h : validate { config with stopOnFailure := stop } around source entryPoint = .ok v)
    (hg : ∀ r ∈ v.report.stages.take 4, ¬ r.Fails) (flag : Bool) :
    validate { config with stopOnFailure := flag } around source entryPoint = .ok v := by
  rw [take_stages_of_validate h] at hg
  simp only [Course.results, List.forall_mem_cons] at hg
  obtain ⟨h1, h2, h3, -, -⟩ := hg
  obtain ⟨hc, hr, hv⟩ := (validate_eq_ok_iff config _).mp h
  exact (validate_eq_ok_iff config _).mpr ⟨hc, hr.of_not_fails h1 h2 h3 flag, hv⟩

/-- **Stopping on failures only cuts a validation short.** -/
theorem truncates (config : ValidatorConfig) (around : Surroundings) (source : String) (entryPoint : Option String) :
    Truncates (validate { config with stopOnFailure := true } around source entryPoint)
      (validate { config with stopOnFailure := false } around source entryPoint) := by
  have htake : ∀ {rs : List StageResult}, (∀ r ∈ rs, ¬ r.Fails) → ∀ r ∈ rs.take 4, ¬ r.Fails :=
    fun hg r hr => hg r (List.mem_of_mem_take hr)
  refine ⟨fun v' h' => ?reported, fun v v' h h' => ?stages, fun v v' h h' => ?requests, ?passed,
    fun v hv hg => ?same⟩
  case reported =>
    obtain ⟨hc, hr', -⟩ := (validate_eq_ok_iff config _).mp h'
    obtain ⟨c, hr⟩ := hr'.exists_stopped
    exact ⟨conclude config around source entryPoint c, (validate_eq_ok_iff config _).mpr ⟨hc, hr, rfl⟩⟩
  case stages =>
    obtain ⟨-, hr, hv⟩ := (validate_eq_ok_iff config _).mp h
    obtain ⟨-, hr', hv'⟩ := (validate_eq_ok_iff config _).mp h'
    rw [stages_of_validate h, stages_of_validate h']
    refine hr.sameUntilFailure hr' fun heq => ?_
    have hvv : v = v' := by rw [hv, heq, ← hv']
    rw [hvv]
  case requests =>
    obtain ⟨-, hr, -⟩ := (validate_eq_ok_iff config _).mp h
    obtain ⟨-, hr', -⟩ := (validate_eq_ok_iff config _).mp h'
    exact hr.requests_suffix hr'
  case passed =>
    constructor
    · rintro ⟨v, h, hp⟩
      exact ⟨v, validate_of_not_fails h (htake (not_fails_of_passed h hp)) false, hp⟩
    · rintro ⟨v, h, hp⟩
      exact ⟨v, validate_of_not_fails h (htake (not_fails_of_passed h hp)) true, hp⟩
  case same =>
    obtain h | h := hv
    · rw [h, validate_of_not_fails h hg false]
    · rw [h, validate_of_not_fails h hg true]

/-- Nothing is asked of the sandbox behind the forbidden import, unless failures do not stop the pipeline. -/
theorem truncates_forbidden :
    let config : ValidatorConfig :=
      { patterns := Denylist.empty.extend (.modules ["os"]), propertyTests := { trials := 1 } }
    let batch (calls : Nat) : Reply :=
      ⟨{ cleanRun with calls := List.replicate calls (.returned (.int 0)) }, some .zero⟩
    let around := scripted (scriptedSandbox [⟨cleanRun, some .zero⟩, batch 2] (batch 1))
    let source := "import os\ndef f(x):\n    return x\n"
    let stopped := validate { config with stopOnFailure := true } around source (some "f")
    let full := validate { config with stopOnFailure := false } around source (some "f")
    let summary (v : Validation) := (v.report.stages.map (·.status), v.log.requests.length)
    Truncates stopped full ∧
      stopped.toOption.map summary = some ([.failed, .skipped, .skipped, .skipped, .passed], 0) ∧
      full.toOption.map summary = some ([.failed, .passed, .passed, .passed, .passed], 3) := by
  intro config batch around source stopped full summary
  exact ⟨truncates config around source (some "f"), by decide +kernel, by decide +kernel⟩

/-- The resource guard of a course that it passes is the same under a higher threshold. -/
theorem conclude_raised {thresholds : Thresholds} {c : Course} (hle : config.thresholds ≤ thresholds)
    (h : ¬ (ResourceGuard.check config.ceilings config.thresholds.resourceGuard (usageOf around.wallTime c)).Fails) :
    conclude { config with thresholds := thresholds } around source entryPoint c
      = conclude config around source entryPoint c := by
  have hlast : ResourceGuard.check config.ceilings thresholds.resourceGuard (usageOf around.wallTime c)
      = ResourceGuard.check config.ceilings config.thresholds.resourceGuard (usageOf around.wallTime c) :=
    StageResult.ofFindings_of_le hle.resourceGuard h
  simp only [conclude, hlast]

/-- **Higher thresholds never reject what was accepted**: the validation is the same in everything that it reports. -/
theorem validate_of_thresholds_le {thresholds : Thresholds} {v : Validation} (hle : config.thresholds ≤ thresholds)
    (h : validate config around source entryPoint = .ok v) (hp : v.report.passed = true) :
    validate { config with thresholds := thresholds } around source entryPoint = .ok v := by
  have hg := not_fails_of_passed h hp
  rw [stages_of_validate h, List.forall_mem_append, List.forall_mem_singleton] at hg
  obtain ⟨hresults, hguard⟩ := hg
  obtain ⟨hc, hr, hv⟩ := (validate_eq_ok_iff config config.stopOnFailure).mp h
  have husage : v.usage = usageOf around.wallTime v.course := by
    rw [hv]
    rfl
  rw [husage] at hguard
  refine (validate_eq_ok_iff { config with thresholds := thresholds } config.stopOnFailure).mpr
    ⟨hc, hr.raised hle hresults, ?_⟩
  rw [conclude_raised hle hguard]
  exact hv

/-- A run whose output was cut off gives a warning, which no threshold from errors on counts. -/
theorem validate_of_thresholds_le_truncated :
    let config : ValidatorConfig := { patterns := .empty }
    let thresholds : Thresholds := ⟨.critical, .critical, .critical, .critical, .critical⟩
    let around := scripted fun _ _ => ⟨{ cleanRun with outputTruncated := true }, some .zero⟩
    ∃ v, config.thresholds ≤ thresholds ∧ validate config around "x = 1\n" none = .ok v ∧
      v.report.passed = true ∧ v.report.findings.length = 4 ∧
      validate { config with thresholds := thresholds } around "x = 1\n" none = .ok v := by
  intro config thresholds around
  have hle : config.thresholds ≤ thresholds :=
    ⟨by decide, by decide, by decide, by decide, by decide⟩
  have h : (validate config around "x = 1\n" none).toOption.map
      (fun v => (v.report.passed, v.report.findings.length)) = some (true, 4) := by
    decide +kernel
  obtain ⟨v, hv, hr⟩ := exists_of_toOption_map h
  obtain ⟨hp, hl⟩ := Prod.mk.inj hr
  exact ⟨v, hle, hv, hp, hl, validate_of_thresholds_le hle hv hp⟩

end Validation

end Vetting
