import Vetting.Proofs.Sandbox.Runs
import Vetting.Proofs.Text.Ends

/-!
# Clean runs

A run is usable only if everything speaks for it: the process ended by itself with code 0, and its last report
says that all is well and names no violation (`Watched.Clean`). `usable_iff_clean` is that law for
every child, and says besides that a violation in the last report outweighs the status that the report claims
and the code that the process ended with.
-/

namespace Vetting

/-! ### The last report -/

namespace InnerReport

/-- Of the lines that start with the mark, the last goes on with this document. -/
def IsLastDocument (stdout document : List Char) : Prop :=
  ∃ before after, Text.lines stdout = before ++ (sentinel ++ document) :: after ∧
    ∀ line ∈ after, ¬ sentinel <+: line

theorem lastMarked?_eq_some_iff {stdout document : List Char} :
    lastMarked? stdout = some document ↔ IsLastDocument stdout document := by
  unfold lastMarked? IsLastDocument
  rw [List.findSome?_eq_some_iff]
  constructor
  · rintro ⟨after, line, before, hlines, hline, hafter⟩
    refine ⟨before.reverse, after.reverse, ?_, ?_⟩
    · rw [← Text.dropPrefix?_eq_some_iff.mp hline, ← List.reverse_reverse (Text.lines stdout), hlines]
      simp
    · intro l hl
      exact Text.dropPrefix?_eq_none_iff.mp (hafter l (List.mem_reverse.mp hl))
  · rintro ⟨before, after, hlines, hafter⟩
    refine ⟨after.reverse, sentinel ++ document, before.reverse, ?_, ?_, ?_⟩
    · simp [hlines]
    · exact Text.dropPrefix?_eq_some_iff.mpr rfl
    · intro l hl
      exact Text.dropPrefix?_eq_none_iff.mpr (hafter l (List.mem_reverse.mp hl))

end InnerReport

namespace Watched

variable {w : Watched} {r : InnerReport}

/-- The last marked line of what the child wrote holds this report. -/
def LastReport (w : Watched) (r : InnerReport) : Prop :=
  ∃ document, InnerReport.IsLastDocument w.stdoutText document ∧
    InnerReport.shape.decoder.ofText (String.ofList document) = .ok r

theorem ofStdout?_eq_some_iff :
    InnerReport.ofStdout? w.stdoutText = some r ↔ w.LastReport r := by
  unfold InnerReport.ofStdout? LastReport
  rw [Option.bind_eq_some_iff]
  refine exists_congr fun document => and_congr InnerReport.lastMarked?_eq_some_iff ?_
  cases InnerReport.shape.decoder.ofText (String.ofList document) <;> simp [Except.toOption]

/-- Everything speaks for the run: how the process ended, and what its last report says. -/
structure Clean (w : Watched) : Prop where
  ended : w.status = some (.code 0)
  reported : ∃ r, w.LastReport r ∧ r.status = .ok ∧ r.violations = []

theorem Clean.not_isOverdue (h : w.Clean) : ¬ w.IsOverdue := by
  unfold IsOverdue
  rw [h.ended]
  simp

end Watched

/-! ### Exits -/

variable {b : Backend} {config : SandboxConfig} {w : Watched} {r : InnerReport} {wallTime : Duration}

namespace InnerReport

theorem exit_eq_ok_iff : r.exit = .ok ↔ r.status = .ok ∧ r.violations = [] := by
  unfold exit
  cases hv : r.violations with
  | nil => cases r.status <;> simp [InnerStatus.exit]
  | cons violation more => simp

theorem exit_of_violations (h : r.violations ≠ []) : r.exit = .forbiddenOperation := by
  unfold exit
  rw [if_neg (by simpa using h)]

/-- A report with a violation always names an exception, if only the violation itself. -/
theorem exception?_isSome_of_violations (h : r.violations ≠ []) : r.exception?.isSome = true := by
  unfold exception?
  cases r.exception with
  | some e => rfl
  | none => rw [List.getLast?_eq_some_getLast h]; rfl

end InnerReport

theorem silentExit_ne_ok : silentExit w ≠ .ok := by
  unfold silentExit
  split <;> simp

/-- That all is well counts only when the process ended well. -/
theorem reportedResult_exit_eq_ok_iff :
    (reportedResult b w r wallTime).exit = .ok ↔ r.exit = .ok ∧ w.status = some (.code 0) := by
  have h : (reportedResult b w r wallTime).exit =
      if r.exit = .ok && w.status ≠ some (.code 0) then .runtimeError else r.exit := rfl
  rw [h]
  by_cases hr : r.exit = .ok <;> by_cases hs : w.status = some (.code 0) <;> simp [hr, hs]

theorem classify_exit_eq_ok_iff : (classify b config w wallTime).exit = .ok ↔ w.Clean := by
  by_cases ho : w.IsOverdue
  · rw [classify_of_isOverdue ho]
    refine iff_of_false ?_ fun hc => hc.not_isOverdue ho
    simp [RunResult.ofTimeout, RunResult.aborted]
  cases hr : InnerReport.ofStdout? w.stdoutText with
  | none =>
    rw [classify_of_silent ho hr]
    refine iff_of_false silentExit_ne_ok ?_
    rintro ⟨-, r, hl, -⟩
    rw [Watched.ofStdout?_eq_some_iff.mpr hl] at hr
    cases hr
  | some r =>
    rw [classify_of_reports ⟨ho, hr⟩, reportedResult_exit_eq_ok_iff, InnerReport.exit_eq_ok_iff]
    have hl : w.LastReport r := Watched.ofStdout?_eq_some_iff.mp hr
    constructor
    · rintro ⟨⟨hs, hv⟩, hw⟩
      exact ⟨hw, r, hl, hs, hv⟩
    · rintro ⟨hw, r', hl', hs, hv⟩
      have hrr : some r = some r' := hr.symm.trans (Watched.ofStdout?_eq_some_iff.mpr hl')
      cases hrr
      exact ⟨⟨hs, hv⟩, hw⟩

/-- A result of a child is in the state that its exit leads to. -/
theorem classify_state :
    (classify b config w wallTime).state = (classify b config w wallTime).exit.terminalState := by
  by_cases ho : w.IsOverdue
  · rw [classify_of_isOverdue ho]
    rfl
  cases hr : InnerReport.ofStdout? w.stdoutText with
  | none =>
    rw [classify_of_silent ho hr]
    rfl
  | some r =>
    rw [classify_of_reports ⟨ho, hr⟩]
    rfl

theorem isUsable_classify_iff :
    (classify b config w wallTime).isUsable = true ↔ (classify b config w wallTime).exit = .ok := by
  unfold RunResult.isUsable
  rw [classify_state]
  cases (classify b config w wallTime).exit <;> decide

/-- A violation in the last report decides the exit and leaves an exception. -/
theorem classify_of_violations (ho : ¬ w.IsOverdue) (hl : w.LastReport r) (hv : r.violations ≠ []) :
    (classify b config w wallTime).exit = .forbiddenOperation ∧
      (classify b config w wallTime).exception.isSome = true := by
  have hr : w.Reports r := ⟨ho, Watched.ofStdout?_eq_some_iff.mpr hl⟩
  have he : r.exit = .forbiddenOperation := InnerReport.exit_of_violations hv
  rw [classify_of_reports hr]
  refine ⟨(reportedResult_exit (by simp [he])).trans he, ?_⟩
  exact InnerReport.exception?_isSome_of_violations hv

/-- A run is usable exactly when its exit is `ok`, and that is exactly when the child was clean. A violation in
the last report of a child that was not stopped for its time makes the run a forbidden operation, whatever else
the report says and however the process ended. -/
theorem usable_iff_clean (b : Backend) (config : SandboxConfig) (w : Watched) (wallTime : Duration) :
    ((classify b config w wallTime).isUsable = true ↔ w.Clean) ∧
      ((classify b config w wallTime).exit = .ok ↔ w.Clean) ∧
      ∀ r, ¬ w.IsOverdue → w.LastReport r → r.violations ≠ [] →
        (classify b config w wallTime).exit = .forbiddenOperation ∧
          (classify b config w wallTime).exception.isSome = true := by
  refine ⟨isUsable_classify_iff.trans classify_exit_eq_ok_iff, classify_exit_eq_ok_iff, ?_⟩
  intro r ho hl hv
  exact classify_of_violations ho hl hv

/-- Code that goes on after it was caught, writes a report of its own, and ends with code 3. -/
theorem usable_iff_clean_caught :
    let text := "__SANDBOX_RESULT__\x7b\"status\":\"ok\"\x7d\n"
      ++ "__SANDBOX_RESULT__\x7b\"status\":\"ok\",\"violations\":[\"os\"]\x7d\n"
    let child : Child := ⟨.code 3, text.toList.map fun c => UInt8.ofNat c.toNat, []⟩
    let w : Watched := .ofChild ({} : SandboxConfig).reportReadCap child
    let run := classify .subprocess {} w .zero
    (∃ r, ¬ w.IsOverdue ∧ w.LastReport r ∧ r.status = .ok ∧ r.violations ≠ []) ∧
      run.exit = .forbiddenOperation ∧ run.exception.isSome = true ∧ run.isUsable = false := by
  intro text child w run
  have h : (InnerReport.ofStdout? w.stdoutText).map (fun r => (r.status, r.violations))
      = some (.ok, ["os"]) := by
    decide +kernel
  clear_value text
  obtain ⟨r, hr, hv⟩ := Option.map_eq_some_iff.mp h
  obtain ⟨hs, hv⟩ := Prod.mk.inj hv
  have ho : ¬ w.IsOverdue := by simp [Watched.IsOverdue, w, Watched.ofChild, child]
  have hl : w.LastReport r := Watched.ofStdout?_eq_some_iff.mp hr
  obtain ⟨husable, hok, hviolations⟩ := usable_iff_clean .subprocess {} w .zero
  obtain ⟨hexit, hexception⟩ := hviolations r ho hl (by simp [hv])
  refine ⟨⟨r, ho, hl, hs, by simp [hv]⟩, hexit, hexception, ?_⟩
  rw [Bool.eq_false_iff, ne_eq, husable, ← hok, hexit]
  decide

end Vetting
