import Vetting.Proofs.Validation.Acceptance

/-!
# The verdict without execution

`isSafe` looks at the first two stages only. Without a deadline it agrees with the report of a whole validation
(`isSafe_iff_report`), but for one thing: where there are no analyzers it asks for none, while the report has a stage
with a notice, and a threshold can be so low that the notice fails it (`Report.FailedOnNotice`).
-/

namespace Vetting

/-- Static analysis has failed, and all that it found is the notice that there are no analyzers. -/
def Report.FailedOnNotice (r : Report) : Prop :=
  ∃ result, r.stage? .staticAnalysis = some result ∧ result.status = .failed ∧
    result.findings = [⟨.info, "no static analyzers configured", none, none⟩]

namespace Validation

variable {config : ValidatorConfig} {around : Surroundings} {source : String} {entryPoint : Option String}

/-- A source whose first stage passes is a program, and nothing is stopped. -/
theorem firstHaltReason?_of_passed {denylist : Denylist} {limits : PrevalidationConfig} {threshold : Severity}
    {text : List Char} (stop : Bool) (h : (Prevalidation.run denylist limits threshold text).status = .passed) :
    firstHaltReason? stop (Prevalidation.run denylist limits threshold text) = none := by
  have hsyntax : Prevalidation.isSyntaxFailure (Prevalidation.run denylist limits threshold text) ≠ true := by
    intro hs
    rw [Prevalidation.status_run_of_isSyntaxFailure hs] at h
    cases h
  rw [firstHaltReason?, if_neg hsyntax, haltReason?, h]
  simp [StageStatus.haltsPipeline]

/-- What `isSafe` asks of the analysis, read off a second stage that nothing has stopped. -/
theorem StaticStep.isSafe_iff {timed : Timed} (h : StaticStep config around source none timed)
    (hd : config.overallDeadline = none) :
    (config.staticAnalysis.enabled = false ∨ around.analyzers = [] ∨
      ((Analysis.run (.ofConfig config.staticAnalysis) around.analyzers source).stageResult
        config.thresholds.staticAnalysis).status = .passed) ↔
    (timed.result.status = .passed ∨ timed.result = .skipped .staticAnalysis "static analysis disabled" ∨
      around.analyzers = [] ∧ timed.result.status = .failed ∧
        timed.result.findings = [⟨.info, "no static analyzers configured", none, none⟩]) := by
  cases h with
  | disabled he => simp [he]
  | @finished analysis he ha =>
    subst ha
    constructor
    · rintro (hf | hn | hp)
      · rw [he] at hf
        cases hf
      · obtain hp | hf := StageResult.ofFindings_status
        · exact .inl hp
        · refine .inr (.inr ⟨hn, hf, ?_⟩)
          rw [hn]
          rfl
      · exact .inl hp
    · rintro (hp | hs | ⟨hn, -, -⟩)
      · exact .inr (.inr hp)
      · have hskipped := congrArg StageResult.status hs
        exact absurd hskipped (StageResult.ofFindings_status_ne (by simp [StageResult.skipped]))
      · exact .inr (.inl hn)
  | overdue _ _ ho =>
    rw [hd] at ho
    cases ho

/-- **The verdict without execution is that of the report**, except that it asks for no analyzers where there are
none: there a report can fail on the notice that says so. -/
theorem isSafe_iff_report {v : Validation} (h : validate config around source entryPoint = .ok v)
    (hd : config.overallDeadline = none) :
    isSafe config around.analyzers source = true ↔
      v.report.Passed .prevalidation ∧
        (v.report.Passed .staticAnalysis ∨ v.report.SkippedFor .staticAnalysis "static analysis disabled" ∨
          around.analyzers = [] ∧ v.report.FailedOnNotice) := by
  obtain ⟨-, hfollows, -⟩ := of_validate h
  obtain ⟨hfirst, hsecond, -⟩ := stage?_of_validate h
  have hstep := hfollows.second
  simp only [Report.Passed, Report.SkippedFor, Report.FailedOnNotice, hfirst, hsecond, Option.some_inj,
    exists_eq_left']
  rw [isSafe_iff, ← hfollows.first]
  constructor
  · rintro ⟨hp, hsafe⟩
    rw [hfollows.first] at hp hstep
    rw [firstHaltReason?_of_passed config.stopOnFailure hp] at hstep
    exact ⟨hfollows.first ▸ hp, (hstep.isSafe_iff hd).mp hsafe⟩
  · rintro ⟨hp, hsafe⟩
    rw [hfollows.first] at hp hstep
    rw [firstHaltReason?_of_passed config.stopOnFailure hp] at hstep
    exact ⟨hfollows.first ▸ hp, (hstep.isSafe_iff hd).mpr hsafe⟩

/-- An analyzer whose issue the threshold lets pass, one whose issue it does not, and none at a threshold that fails the
notice. -/
theorem isSafe_iff_report_analyzed :
    let lint (level : String) : Analyzer :=
      ⟨"lint", ⟨[("low", .warning), ("high", .error)]⟩, fun _ => ⟨.issues [⟨level, "found", none, none⟩], some .zero⟩⟩
    let around (analyzers : List Analyzer) : Surroundings :=
      { scripted fun _ _ => ⟨cleanRun, some .zero⟩ with analyzers := analyzers }
    let config (threshold : Severity) : ValidatorConfig :=
      { patterns := .empty, thresholds := { staticAnalysis := threshold } }
    let source := "x = 1\n"
    (∃ v, validate (config .error) (around [lint "low"]) source none = .ok v ∧
      isSafe (config .error) [lint "low"] source = true ∧
      v.report.Passed .prevalidation ∧ v.report.Passed .staticAnalysis) ∧
    (∃ v, validate (config .error) (around [lint "high"]) source none = .ok v ∧
      isSafe (config .error) [lint "high"] source = false ∧
      v.report.Passed .prevalidation ∧ ¬ v.report.Passed .staticAnalysis) ∧
    ∃ v, validate (config .info) (around []) source none = .ok v ∧ isSafe (config .info) [] source = true ∧
      v.report.Passed .prevalidation ∧ v.report.FailedOnNotice := by
  intro lint around config source
  have statuses (c : ValidatorConfig) (analyzers : List Analyzer) (first second : StageStatus)
      (h : (validate c (around analyzers) source none).toOption.map (fun v =>
        ((v.report.stage? .prevalidation).map (·.status), (v.report.stage? .staticAnalysis).map (·.status)))
          = some (some first, some second)) :
      ∃ v, validate c (around analyzers) source none = .ok v ∧
        (∃ r, v.report.stage? .prevalidation = some r ∧ r.status = first) ∧
        ∃ r, v.report.stage? .staticAnalysis = some r ∧ r.status = second := by
    obtain ⟨v, hv, hr⟩ := exists_of_toOption_map h
    obtain ⟨hfirst, hsecond⟩ := Prod.mk.inj hr
    exact ⟨v, hv, Option.map_eq_some_iff.mp hfirst, Option.map_eq_some_iff.mp hsecond⟩
  refine ⟨?passes, ?fails, ?notice⟩
  case passes =>
    obtain ⟨v, hv, -, r, hr, hpassed⟩ := statuses (config .error) [lint "low"] .passed .passed (by decide +kernel)
    have hsafe : isSafe (config .error) [lint "low"] source = true := by decide +kernel
    obtain ⟨hfirst, hsecond | hskipped | ⟨hnone, -⟩⟩ := (isSafe_iff_report hv rfl).mp hsafe
    · exact ⟨v, hv, hsafe, hfirst, hsecond⟩
    · cases hr.symm.trans hskipped
      cases hpassed
    · cases hnone
  case fails =>
    obtain ⟨v, hv, hfirst, -⟩ := statuses (config .error) [lint "high"] .passed .failed (by decide +kernel)
    have hunsafe : isSafe (config .error) [lint "high"] source = false := by decide +kernel
    refine ⟨v, hv, hunsafe, hfirst, fun hsecond => ?_⟩
    have hsafe := (isSafe_iff_report hv rfl).mpr ⟨hfirst, .inl hsecond⟩
    cases hunsafe.symm.trans hsafe
  case notice =>
    obtain ⟨v, hv, -, r, hr, hfailed⟩ := statuses (config .info) [] .passed .failed (by decide +kernel)
    have hsafe : isSafe (config .info) [] source = true := by decide +kernel
    obtain ⟨hfirst, ⟨r', hr', hpassed⟩ | hskipped | ⟨-, hnotice⟩⟩ := (isSafe_iff_report hv rfl).mp hsafe
    · cases hr.symm.trans hr'
      cases hfailed.symm.trans hpassed
    · cases hr.symm.trans hskipped
      cases hfailed
    · exact ⟨v, hv, hsafe, hfirst, hnotice⟩

/-- A threshold at the lowest severity, and no analyzers. -/
theorem not_isSafe_iff_passed :
    let config : ValidatorConfig := { patterns := .empty, thresholds := { staticAnalysis := .info } }
    let around := scripted fun _ _ => ⟨cleanRun, some .zero⟩
    ∃ v, validate config around "x = 1\n" none = .ok v ∧ config.overallDeadline = none ∧
      ¬ (isSafe config around.analyzers "x = 1\n" = true ↔
        v.report.Passed .prevalidation ∧
          (v.report.Passed .staticAnalysis ∨ v.report.SkippedFor .staticAnalysis "static analysis disabled")) := by
  intro config around
  have h : (validate config around "x = 1\n" none).toOption.map
      (fun v => (v.report.stage? .staticAnalysis).map (·.status)) = some (some .failed) := by
    decide +kernel
  obtain ⟨v, hv, hr⟩ := exists_of_toOption_map h
  obtain ⟨result, hresult, hfailed⟩ := Option.map_eq_some_iff.mp hr
  have hsafe : isSafe config around.analyzers "x = 1\n" = true := by decide +kernel
  refine ⟨v, hv, rfl, fun hiff => ?_⟩
  obtain ⟨-, ⟨passed, hp, hpassed⟩ | hs⟩ := hiff.mp hsafe
  · cases hresult.symm.trans hp
    rw [hpassed] at hfailed
    cases hfailed
  · cases hresult.symm.trans hs
    cases hfailed

end Validation

end Vetting
