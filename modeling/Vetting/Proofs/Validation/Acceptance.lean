import Vetting.Proofs.Screening.Scan
import Vetting.Proofs.Validation.Halting

/-!
# What exit code 0 means

The verdict counts a skipped stage as good, so an exit code of 0 is sound only because no stage is ever
skipped for another one without leaving a result behind that is not good. `Accepted` says what is known of
a report with exit code 0: every stage has passed or was left out by the configuration or the caller, or, for
the property stage, for want of anything to test.
-/

namespace Vetting

namespace Verdict

/-- The exit code is 0 exactly when no stage went wrong, be it that some were skipped. -/
theorem exitCode_ofStages_eq_zero_iff {stages : List StageResult} :
    (ofStages stages).exitCode = 0 ↔ ∀ s ∈ stages, s.status = .passed ∨ s.status = .skipped := by
  have hs : ∀ s : StageStatus,
      ¬ (s = .failed ∨ s = .timedOut ∨ s = .errored) ↔ s = .passed ∨ s = .skipped := by
    intro s
    cases s <;> simp
  simp only [ofStages, ← hs, not_or]
  split
  · rename_i h
    obtain ⟨s, hm, hf⟩ := List.any_eq_true.mp h
    exact ⟨nofun, fun h => absurd (of_decide_eq_true hf) (h s hm).1⟩
  · rename_i hf
    simp only [List.any_eq_true, decide_eq_true_eq, not_exists, not_and] at hf
    split
    · rename_i h
      obtain ⟨s, hm, he⟩ := List.any_eq_true.mp h
      simp only [Bool.or_eq_true, decide_eq_true_eq] at he
      refine ⟨nofun, fun h => ?_⟩
      rcases he with he | he
      · exact absurd he (h s hm).2.1
      · exact absurd he (h s hm).2.2
    · rename_i he
      simp only [List.any_eq_true, Bool.or_eq_true, decide_eq_true_eq, not_exists, not_and,
        not_or] at he
      exact ⟨fun _ s hm => ⟨hf s hm, he s hm⟩, fun _ => rfl⟩

end Verdict

namespace Report

/-- The report has a result for a stage, and it is a pass. -/
def Passed (r : Report) (s : StageId) : Prop := ∃ result, r.stage? s = some result ∧ result.status = .passed

/-- The report says that a stage was skipped, and why. -/
def SkippedFor (r : Report) (s : StageId) (reason : String) : Prop :=
  r.stage? s = some (.skipped s reason)

end Report

namespace Validation

variable {config : ValidatorConfig} {around : Surroundings} {source : String}
  {entryPoint : Option String}

/-- What is known of a report with exit code 0. -/
structure Accepted (config : ValidatorConfig) (entryPoint : Option String) (r : Report) : Prop where
  prevalidation : r.Passed .prevalidation
  staticAnalysis : r.Passed .staticAnalysis ∨
    r.SkippedFor .staticAnalysis "static analysis disabled" ∧ config.staticAnalysis.enabled = false
  execution : r.Passed .sandboxExecution ∧ r.execution.isSome = true ∨
    r.SkippedFor .sandboxExecution "sandbox disabled" ∧ config.enableSandbox = false
  properties : r.Passed .propertyTesting ∨
    ∃ reason, r.SkippedFor .propertyTesting reason ∧
      Untestable config entryPoint r.execution reason ∧
      (config.enablePropertyTests = false ∨ entryPoint = none ∨ config.enableSandbox = false ∨
        ∃ run, r.execution = some run ∧
          (run.isUsable = false ∨ run.entryPointFound ≠ some true ∨ run.signature = none))
  resourceGuard : r.Passed .resourceGuard
  /-- No stage was skipped because of what another stage came to. -/
  independent : ∀ s ∈ r.stages, ∀ reason, s.skipReason = some reason → ¬ IsHaltReason reason

/-! ### Good results -/

/-- A result that counts as good does not stop anything. -/
theorem Course.Follows.not_stops {c : Course} (h : c.Follows config around source entryPoint)
    (hg : ∀ r ∈ c.results, r.status = .passed ∨ r.status = .skipped) :
    ∀ m ∈ c.marks, ¬ Stops config.stopOnFailure m.1 := by
  intro m hm hs
  have hr : m.1 ∈ c.results := List.mem_map_of_mem hm
  have hgood := hg _ hr
  obtain ht | ⟨-, hf | he⟩ | hu := hs
  · rw [ht] at hgood
    simp at hgood
  · rw [hf] at hgood
    simp at hgood
  · rw [he] at hgood
    simp at hgood
  · -- only the first stage can say that the source is no program, and then it has failed
    obtain ⟨hstage, hsyntax⟩ := isUnparsed_iff.mp hu
    have hfirst : m.1 = c.first := by
      simp only [results, List.mem_cons, List.not_mem_nil, or_false] at hr
      obtain hr | hr | hr | hr := hr
      · exact hr
      · rw [hr, h.second.stage_eq] at hstage
        cases hstage
      · rw [hr, h.third.stage_eq] at hstage
        cases hstage
      · rw [hr, h.fourth.stage_eq] at hstage
        cases hstage
    rw [hfirst, h.first] at hsyntax hgood
    rw [Prevalidation.status_run_of_isSyntaxFailure hsyntax] at hgood
    simp at hgood

/-! ### Stages that are not halted -/

theorem StaticStep.passed_or_disabled {timed : Timed} (h : StaticStep config around source none timed)
    (hg : timed.result.status = .passed ∨ timed.result.status = .skipped) :
    timed.result.status = .passed ∨
      timed.result = .skipped .staticAnalysis "static analysis disabled" ∧
        config.staticAnalysis.enabled = false := by
  cases h with
  | disabled he => exact .inr ⟨rfl, he⟩
  | finished =>
    exact .inl (hg.resolve_right (StageResult.ofFindings_status_ne (by simp)))
  | overdue => simp [StageResult.timedOut] at hg

theorem executionResult_status_ne_skipped (r : RunResult) :
    (executionResult config entryPoint r).status ≠ .skipped := by
  unfold executionResult
  split
  · nofun
  · exact StageResult.ofFindings_status_ne (by simp)

theorem ExecutionStep.passed_or_disabled {executed : Executed}
    (h : ExecutionStep config around source entryPoint elapsed none executed)
    (hg : executed.result.status = .passed ∨ executed.result.status = .skipped) :
    executed.result.status = .passed ∧ executed.run?.isSome = true ∨
      executed.result = .skipped .sandboxExecution "sandbox disabled" ∧
        config.enableSandbox = false ∧ executed.run? = none := by
  cases h with
  | disabled he => exact .inr ⟨rfl, he, rfl⟩
  | finished =>
    exact .inl ⟨hg.resolve_right (executionResult_status_ne_skipped _), rfl⟩
  | overdue => simp [StageResult.timedOut] at hg

theorem PropertyStep.passed_or_untestable {executed : Executed} {tested : Tested}
    (h : PropertyStep config around source entryPoint executed none tested)
    (hg : tested.result.status = .passed ∨ tested.result.status = .skipped) :
    tested.result.status = .passed ∨
      ∃ reason, tested.result = .skipped .propertyTesting reason ∧
        Untestable config entryPoint executed.run? reason := by
  cases h with
  | untested ht => exact .inr ⟨_, rfl, untestable ht⟩
  | finished =>
    exact .inl (hg.resolve_right (StageResult.ofFindings_status_ne (by simp)))
  | overdue => simp [StageResult.timedOut] at hg

/-- The causes behind the reasons for testing nothing, where a run is missing only for want of a sandbox. -/
theorem Untestable.cause (h : Untestable config entryPoint run? reason)
    (hr : run? = none → config.enableSandbox = false) :
    config.enablePropertyTests = false ∨ entryPoint = none ∨ config.enableSandbox = false ∨
      ∃ run, run? = some run ∧
        (run.isUsable = false ∨ run.entryPointFound ≠ some true ∨ run.signature = none) := by
  cases h with
  | disabled he => exact .inl he
  | unnamed => exact .inr (.inl rfl)
  | notRun => exact .inr (.inr (.inl (hr rfl)))
  | unclean _ hu => exact .inr (.inr (.inr ⟨_, rfl, .inl hu⟩))
  | notFound _ _ hf => exact .inr (.inr (.inr ⟨_, rfl, .inr (.inl hf)⟩))
  | unsigned _ _ _ hs => exact .inr (.inr (.inr ⟨_, rfl, .inr (.inr hs)⟩))

/-! ### Accepted reports -/

theorem accepted_of_exitCode_eq_zero {v : Validation}
    (h : validate config around source entryPoint = .ok v) (h0 : v.report.exitCode = 0) :
    Accepted config entryPoint v.report := by
  obtain ⟨-, hf, hv⟩ := of_validate h
  obtain ⟨s1, s2, s3, s4, s5⟩ := stage?_of_validate h
  have hrun : v.report.execution = v.course.third.run? := by rw [hv]; rfl
  have hverdict : v.report.status = .ofStages v.report.stages := by rw [hv]; rfl
  rw [Report.exitCode, hverdict, Verdict.exitCode_ofStages_eq_zero_iff, stages_of_validate h,
    List.forall_mem_append] at h0
  obtain ⟨hgood, hguard⟩ := h0
  have hn := hf.not_stops hgood
  obtain ⟨n1, n2, n3⟩ := hf.unhalted hn
  have hsecond := hf.second
  have hthird := hf.third
  have hfourth := hf.fourth
  rw [n1] at hsecond
  rw [n2] at hthird
  rw [n3] at hfourth
  simp only [Course.results, List.forall_mem_cons] at hgood
  obtain ⟨g1, g2, g3, g4, -⟩ := hgood
  have hexecution := hthird.passed_or_disabled g3
  refine ⟨⟨_, s1, ?_⟩, ?_, ?_, ?_, ⟨_, s5, ?_⟩, not_isHaltReason_of_unstopped h hn⟩
  · rw [hf.first] at g1 ⊢
    exact g1.resolve_right (StageResult.ofFindings_status_ne (by simp))
  · rcases hsecond.passed_or_disabled g2 with hp | ⟨hs, he⟩
    · exact .inl ⟨_, s2, hp⟩
    · exact .inr ⟨s2.trans (congrArg some hs), he⟩
  · rcases hexecution with ⟨hp, hr⟩ | ⟨hs, he, -⟩
    · exact .inl ⟨⟨_, s3, hp⟩, hrun ▸ hr⟩
    · exact .inr ⟨s3.trans (congrArg some hs), he⟩
  · rcases hfourth.passed_or_untestable g4 with hp | ⟨reason, hs, hu⟩
    · exact .inl ⟨_, s4, hp⟩
    · refine .inr ⟨reason, s4.trans (congrArg some hs), hrun ▸ hu, hrun ▸ hu.cause fun hr => ?_⟩
      rcases hexecution with ⟨-, hsome⟩ | ⟨-, he, -⟩
      · rw [hr] at hsome
        cases hsome
      · exact he
  · exact (hguard _ (List.mem_singleton_self _)).resolve_right
      (StageResult.ofFindings_status_ne (by simp))

/-- A function that returns what it is given is tried once. -/
theorem accepted_identity :
    let config : ValidatorConfig := { patterns := .empty, propertyTests := { trials := 1 } }
    let batch (calls : Nat) : Reply :=
      ⟨{ cleanRun with calls := List.replicate calls (.returned (.int 0)) }, some .zero⟩
    let around := scripted (scriptedSandbox [⟨cleanRun, some .zero⟩, batch 2] (batch 1))
    ∃ v, validate config around "def f(x):\n    return x\n" (some "f") = .ok v ∧
      v.report.exitCode = 0 ∧ Accepted config (some "f") v.report ∧ v.log.requests.length = 3 := by
  intro config batch around
  have h : (validate config around "def f(x):\n    return x\n" (some "f")).toOption.map
      (fun v => (v.report.exitCode, v.log.requests.length)) = some (0, 3) := by
    decide +kernel
  obtain ⟨v, hv, hr⟩ := exists_of_toOption_map h
  obtain ⟨h0, hl⟩ := Prod.mk.inj hr
  exact ⟨v, hv, h0, accepted_of_exitCode_eq_zero hv h0, hl⟩

end Validation

end Vetting
