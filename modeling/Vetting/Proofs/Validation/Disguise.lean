import Vetting.Proofs.Sandbox.Runs
import Vetting.Proofs.Validation.Stages

/-!
# Exceptions that pass for failures of the sandbox

The execution stage tells a failure of the sandbox by the type of the exception in the result, and where
a child has left a report, the code under test has chosen that type. A report is `Disguised` when it names the
type that stands for such a failure. `errored_iff` lists all runs whose stage is errored, and
`executionStage_of_reports` shows the disguise to be the only way for code that reports to leave the stage
without its verdict.
-/

namespace Vetting

/-- The report names the type of exception that stands for a failure of the sandbox itself. -/
def InnerReport.Disguised (r : InnerReport) : Prop :=
  ∃ e, r.exception = some e ∧ e.errorType = "SandboxError"

/-- The finding for code that did at run time what it must not. -/
def Finding.IsForbiddenOperation (f : Finding) : Prop :=
  f.severity = .critical ∧ f.code = some "sandbox-forbidden"

namespace Validation

variable {b : Backend} {sandbox : SandboxConfig} {denylist : Denylist} {runner id : String}
  {machine : Machine} {request : Request} {w : Watched} {r : InnerReport} {wallTime : Duration}

/-! ### Failures by their type of exception -/

theorem isMachineryFailure_iff {run : RunResult} :
    isMachineryFailure run = true ↔ ∃ e, run.exception = some e ∧ e.errorType = "SandboxError" := by
  simp only [isMachineryFailure, Option.any_eq_true, decide_eq_true_eq]
  exact Iff.rfl

theorem isMachineryFailure_ofFailure (e : SandboxError) :
    isMachineryFailure (.ofFailure b e wallTime) = true :=
  isMachineryFailure_iff.mpr ⟨_, rfl, rfl⟩

/-- A violation that stands in for the exception has a type of its own. -/
theorem isMachineryFailure_reportedResult :
    isMachineryFailure (reportedResult b w r wallTime) = true ↔ r.Disguised := by
  have he : (reportedResult b w r wallTime).exception = r.exception? := rfl
  rw [isMachineryFailure_iff, he, InnerReport.Disguised]
  unfold InnerReport.exception?
  cases r.exception with
  | some e => exact Iff.rfl
  | none =>
    cases r.violations.getLast? with
    | none => exact Iff.rfl
    | some violation =>
      refine ⟨fun ⟨e, h, ht⟩ => ?_, nofun⟩
      cases h
      simp at ht

/-- A child without a report cannot tell of a failure of the sandbox. -/
theorem not_isMachineryFailure_classify (h : ∀ r, ¬ w.Reports r) :
    ¬ isMachineryFailure (classify b sandbox w wallTime) = true := by
  rw [isMachineryFailure_iff]
  rintro ⟨e, he, ht⟩
  by_cases ho : w.IsOverdue
  · rw [classify_of_isOverdue ho] at he
    cases he
    simp at ht
  cases hr : InnerReport.ofStdout? w.stdoutText with
  | some r => exact h r ⟨ho, hr⟩
  | none =>
    rw [classify_of_silent ho hr] at he
    cases he
    simp only at ht
    split at ht <;> simp at ht

/-! ### Results of the stage -/

variable {config : ValidatorConfig} {entryPoint : Option String} {run : RunResult}

theorem executionResult_status_eq_errored_iff :
    (executionResult config entryPoint run).status = .errored ↔ isMachineryFailure run = true := by
  unfold executionResult
  split
  · exact iff_of_true rfl ‹_›
  · exact iff_of_false (StageResult.ofFindings_status_ne (by simp)) ‹_›

/-- A forbidden operation is critical, so it fails the stage under every threshold. -/
theorem executionResult_of_forbidden (h : ¬ isMachineryFailure run = true)
    (he : run.exit = .forbiddenOperation) :
    (executionResult config entryPoint run).status = .failed ∧
      ∃ f ∈ (executionResult config entryPoint run).findings, f.IsForbiddenOperation := by
  have hf : (exitFinding config.sandbox run).IsForbiddenOperation := by
    unfold exitFinding
    rw [he]
    exact ⟨rfl, rfl⟩
  unfold executionResult
  rw [if_neg h]
  refine ⟨StageResult.ofFindings_status_eq_failed_iff.mpr ⟨_, List.mem_cons_self, ?_⟩,
    _, List.mem_cons_self, hf⟩
  rw [hf.1]
  exact Severity.le_critical _

/-- What comes of a run whose child has left a report is decided by that report. -/
theorem isMachineryFailure_execute_of_reports
    (hw : Backend.watch (b.command sandbox denylist runner id request)
      (machine (b.command sandbox denylist runner id request)) = .ok w)
    (hr : w.Reports r) :
    isMachineryFailure (b.execute sandbox denylist runner id machine request) = true ↔
      r.Disguised := by
  rw [Backend.execute_of_ok hw, classify_of_reports hr]
  exact isMachineryFailure_reportedResult

/-- All runs whose stage is errored: those that the sandbox spoiled, and those in disguise. -/
theorem errored_iff :
    (executionResult config entryPoint
        (b.execute sandbox denylist runner id machine request)).status = .errored ↔
      (∃ e, Backend.watch (b.command sandbox denylist runner id request)
        (machine (b.command sandbox denylist runner id request)) = .error e) ∨
      ∃ w r, Backend.watch (b.command sandbox denylist runner id request)
        (machine (b.command sandbox denylist runner id request)) = .ok w ∧
          w.Reports r ∧ r.Disguised := by
  rw [executionResult_status_eq_errored_iff]
  constructor
  · intro h
    cases hw : Backend.watch (b.command sandbox denylist runner id request)
        (machine (b.command sandbox denylist runner id request)) with
    | error e => exact .inl ⟨e, rfl⟩
    | ok w =>
      by_cases hr : ∃ r, w.Reports r
      · obtain ⟨r, hr⟩ := hr
        exact .inr ⟨w, r, rfl, hr, (isMachineryFailure_execute_of_reports hw hr).mp h⟩
      · rw [Backend.execute_of_ok hw] at h
        exact absurd h (not_isMachineryFailure_classify fun r h => hr ⟨r, h⟩)
  · rintro (⟨e, hw⟩ | ⟨w, r, hw, hr, hd⟩)
    · rw [Backend.execute_of_error hw]
      exact isMachineryFailure_ofFailure e
    · exact (isMachineryFailure_execute_of_reports hw hr).mpr hd

/-! ### Reports under the stage -/

variable {around : Surroundings} {source : String} {elapsed : Duration} {executed : Executed}

/-- A child has left a report, and the stage has taken the result. The stage is errored only under a disguise,
and a forbidden operation is told as such under every threshold, except under a disguise. -/
theorem executionStage_of_reports
    (h : executionStage config around source entryPoint elapsed none = .ok executed)
    (hrun : executed.run? = some (b.execute sandbox denylist runner id machine request))
    (hw : Backend.watch (b.command sandbox denylist runner id request)
      (machine (b.command sandbox denylist runner id request)) = .ok w)
    (hr : w.Reports r) :
    (executed.result.status = .errored ↔ r.Disguised) ∧
      ((b.execute sandbox denylist runner id machine request).exit = .forbiddenOperation →
        ((executed.result.status = .failed ∧
          ∃ f ∈ executed.result.findings, f.IsForbiddenOperation) ↔ ¬ r.Disguised)) := by
  have hresult : executed.result = executionResult config entryPoint
      (b.execute sandbox denylist runner id machine request) := by
    cases executionStep h with
    | disabled | overdue => cases hrun
    | finished => cases hrun; rfl
  have hd := isMachineryFailure_execute_of_reports hw hr
  have herrored : executed.result.status = .errored ↔ r.Disguised := by
    rw [hresult, executionResult_status_eq_errored_iff, hd]
  refine ⟨herrored, fun hexit => ⟨fun ⟨hfailed, _⟩ hdisguised => ?_, fun hn => ?_⟩⟩
  · cases hfailed.symm.trans (herrored.mpr hdisguised)
  · rw [hresult]
    exact executionResult_of_forbidden (mt hd.mp hn) hexit

/-- Code that was caught at an import, and then raises an exception whose type it has named itself. -/
theorem executionStage_of_reports_disguised :
    let config : ValidatorConfig := {}
    let text := "__SANDBOX_RESULT__\x7b\"status\":\"runtime_error\",\"exception\":"
      ++ "\x7b\"error_type\":\"SandboxError\",\"message\":\"\"\x7d,\"violations\":[\"os\"]\x7d"
    let child : Child := ⟨.code 0, text.toList.map fun c => UInt8.ofNat c.toNat, []⟩
    let machine : Machine := fun _ => .ended child
    let w : Watched := .ofChild config.sandbox.reportReadCap child
    let b := Backend.subprocess
    let request : Request := ⟨"", none, []⟩
    let run := b.execute config.sandbox .empty "" "" machine request
    ∃ executed r,
      executionStage config (scripted (b.sandbox config.sandbox .empty "" "" machine)) "" none .zero
        none = .ok executed ∧
      executed.run? = some run ∧
      Backend.watch (b.command config.sandbox .empty "" "" request)
        (machine (b.command config.sandbox .empty "" "" request)) = .ok w ∧
      w.Reports r ∧ run.exit = .forbiddenOperation ∧ executed.result.status = .errored ∧
      ¬ (executed.result.status = .failed ∧
        ∃ f ∈ executed.result.findings, f.IsForbiddenOperation) := by
  intro config text child machine w b request run
  have h : (InnerReport.ofStdout? w.stdoutText).map
      (fun r => (r.exit, r.exception.map (·.errorType)))
        = some (.forbiddenOperation, some "SandboxError") := by
    decide +kernel
  clear_value text
  obtain ⟨r, hreport, hv⟩ := Option.map_eq_some_iff.mp h
  obtain ⟨he, ht⟩ := Prod.mk.inj hv
  have hd : r.Disguised := Option.map_eq_some_iff.mp ht
  have hw : Backend.watch (b.command config.sandbox .empty "" "" request)
    (machine (b.command config.sandbox .empty "" "" request)) = .ok w := rfl
  have hr : w.Reports r := ⟨by simp [Watched.IsOverdue, w, Watched.ofChild, child], hreport⟩
  have hexit : run.exit = .forbiddenOperation :=
    (Backend.execute_exit_of_reports hw hr (by simp [he])).trans he
  have hs : executionStage config (scripted (b.sandbox config.sandbox .empty "" "" machine)) "" none
    .zero none = .ok ⟨executionResult config none run, some run, _⟩ := rfl
  obtain ⟨herrored, hforbidden⟩ := executionStage_of_reports hs rfl hw hr
  exact ⟨_, r, hs, rfl, hw, hr, hexit, herrored.mpr hd, fun hf => (hforbidden hexit).mp hf hd⟩

end Validation

end Vetting
