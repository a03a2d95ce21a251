import Vetting.Sandbox.Execute

/-!
# Runs of a backend

What comes of a run, by the evidence that counts: a sandbox that failed (`Backend.execute_of_error`), a child
that was stopped for its time, a child that left a report (`Watched.Reports`), and one that left none. Ending a
run changes nothing of its result but the state, which is the terminal state of its exit.
-/

namespace Vetting

variable {b : Backend} {config : SandboxConfig} {w : Watched} {r : InnerReport} {wallTime : Duration}

/-! ### Children -/

namespace Watched

/-- The child was stopped for its time, by the watchdog or by the kernel. -/
def IsOverdue (w : Watched) : Prop :=
  w.status = none ∨ w.status = some (.signal ExitStatus.cpuTimeExceeded)

/-- What counts of a child is the report that it left. -/
structure Reports (w : Watched) (r : InnerReport) : Prop where
  inTime : ¬ w.IsOverdue
  report : InnerReport.ofStdout? w.stdoutText = some r

end Watched

theorem classify_of_isOverdue (h : w.IsOverdue) :
    classify b config w wallTime = .ofTimeout b config.timeout wallTime := by
  unfold classify
  rw [if_pos (by simpa [Watched.IsOverdue] using h)]

theorem classify_of_reports (h : w.Reports r) :
    classify b config w wallTime = reportedResult b w r wallTime := by
  unfold classify
  rw [if_neg (by simpa [Watched.IsOverdue] using h.inTime), h.report]

theorem classify_of_silent (h : ¬ w.IsOverdue) (hr : InnerReport.ofStdout? w.stdoutText = none) :
    classify b config w wallTime = silentResult b w wallTime := by
  unfold classify
  rw [if_neg (by simpa [Watched.IsOverdue] using h), hr]

/-- Only an exit that says all is well is looked at again. -/
theorem reportedResult_exit (h : r.exit ≠ .ok) :
    (reportedResult b w r wallTime).exit = r.exit := by
  simp [reportedResult, InnerReport.toResult, h]

/-! ### Ends of runs -/

theorem Exit.isTerminal_terminalState (e : Exit) : e.terminalState.isTerminal = true := by
  cases e <;> rfl

namespace Backend

theorem conclude_ok (result : RunResult) :
    b.conclude (.ok result) wallTime = { result with state := result.exit.terminalState } := by
  have hf : (⟨b, .running⟩ : Lifecycle).finish result.exit = .ok ⟨b, result.exit.terminalState⟩ :=
    if_pos result.exit.isTerminal_terminalState
  simp only [conclude, Lifecycle.start, Lifecycle.transition, Lifecycle.ofBackend, Lifecycle.allows,
    if_true, Lifecycle.settle, hf]

theorem conclude_error (e : SandboxError) :
    b.conclude (.error e) wallTime = .ofFailure b e wallTime := by
  have h : b.conclude (.error e) wallTime = b.conclude (.ok (.ofFailure b e wallTime)) wallTime := rfl
  rw [h, conclude_ok]
  rfl

variable {denylist : Denylist} {runner id : String} {machine : Machine} {request : Request}

/-- The sandbox itself failed. -/
theorem execute_of_error {e : SandboxError}
    (h : watch (b.command config denylist runner id request)
      (machine (b.command config denylist runner id request)) = .error e) :
    b.execute config denylist runner id machine request = .ofFailure b e .zero := by
  simp only [execute, h, Except.map]
  exact conclude_error e

/-- There was a child, and it was classified. -/
theorem execute_of_ok
    (h : watch (b.command config denylist runner id request)
      (machine (b.command config denylist runner id request)) = .ok w) :
    b.execute config denylist runner id machine request =
      { classify b config w .zero with
        state := (classify b config w .zero).exit.terminalState } := by
  simp only [execute, h, Except.map]
  exact conclude_ok _

/-- A report that does not say that all is well decides the exit. -/
theorem execute_exit_of_reports
    (h : watch (b.command config denylist runner id request)
      (machine (b.command config denylist runner id request)) = .ok w)
    (hr : w.Reports r) (he : r.exit ≠ .ok) :
    (b.execute config denylist runner id machine request).exit = r.exit := by
  rw [execute_of_ok h, classify_of_reports hr]
  exact reportedResult_exit he

end Backend

end Vetting
