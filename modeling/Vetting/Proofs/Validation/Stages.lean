import Vetting.Validation
import Vetting.Proofs.Outcome
import Vetting.Proofs.Sandbox.Play

/-!
# What each stage of a validation can do

For each stage that can be skipped a relation with one constructor for each way in which it goes
(`StaticStep`, `ExecutionStep`, `PropertyStep`), and the lemma that the stage takes one of these steps.
`Course.Follows` joins them: every stage has taken a step, under the halt reason that the results before
it leave. `Course.follows_of_run` derives it for every course, and everything else about courses is
derived from it, by cases on the steps.
-/

namespace Vetting

/-- A run that has all that property tests need. -/
structure RunResult.IsTestable (r : RunResult) : Prop where
  usable : r.isUsable = true
  found : r.entryPointFound = some true
  signed : r.signature.isSome = true

namespace Validation

/-! ### Single stages -/

/-- The ways of static analysis. -/
inductive StaticStep (config : ValidatorConfig) (around : Surroundings) (source : String) :
    Option String → Timed → Prop
  | halted : StaticStep config around source (some reason) ⟨.skipped .staticAnalysis reason, .zero⟩
  | disabled : config.staticAnalysis.enabled = false →
      StaticStep config around source none
        ⟨.skipped .staticAnalysis "static analysis disabled", .zero⟩
  | finished : config.staticAnalysis.enabled = true →
      Analysis.run (.ofConfig config.staticAnalysis) around.analyzers source = analysis →
      (∀ deadline, config.overallDeadline = some deadline → analysis.endsBy deadline = true) →
      StaticStep config around source none
        ⟨analysis.stageResult config.thresholds.staticAnalysis, analysis.duration⟩
  | overdue : config.staticAnalysis.enabled = true →
      Analysis.run (.ofConfig config.staticAnalysis) around.analyzers source = analysis →
      config.overallDeadline = some deadline → analysis.endsBy deadline = false →
      StaticStep config around source none ⟨.timedOut .staticAnalysis deadline .zero, deadline⟩

/-- The log with which the execution stage starts: nothing has been asked yet. -/
def startLog (elapsed : Duration) : Log := { Log.empty with elapsed := elapsed }

/-- The ways of the execution stage. -/
inductive ExecutionStep (config : ValidatorConfig) (around : Surroundings) (source : String)
    (entryPoint : Option String) (elapsed : Duration) : Option String → Executed → Prop
  | halted : ExecutionStep config around source entryPoint elapsed (some reason)
      ⟨.skipped .sandboxExecution reason, none, startLog elapsed⟩
  | disabled : config.enableSandbox = false →
      ExecutionStep config around source entryPoint elapsed none
        ⟨.skipped .sandboxExecution "sandbox disabled", none, startLog elapsed⟩
  | finished {log : Log} : config.enableSandbox = true →
      Session.Plays around.sandbox config.overallDeadline (.ask ⟨source, entryPoint, []⟩)
        (startLog elapsed) (.finished r) log →
      ExecutionStep config around source entryPoint elapsed none
        ⟨executionResult config entryPoint r, some r, log⟩
  | overdue {log : Log} : config.enableSandbox = true → config.overallDeadline = some deadline →
      Session.Plays around.sandbox config.overallDeadline (.ask ⟨source, entryPoint, []⟩)
        (startLog elapsed) .cancelled log →
      ExecutionStep config around source entryPoint elapsed none
        ⟨.timedOut .sandboxExecution deadline .zero, none, log⟩

/-- Why there is nothing for the property stage to test. -/
inductive Untestable (config : ValidatorConfig) : Option String → Option RunResult → String → Prop
  | disabled : config.enablePropertyTests = false →
      Untestable config entryPoint run? "property testing disabled"
  | unnamed : config.enablePropertyTests = true →
      Untestable config none run? "no target entry point supplied"
  | notRun : config.enablePropertyTests = true →
      Untestable config (some name) none "sandbox did not run"
  | unclean : config.enablePropertyTests = true → r.isUsable = false →
      Untestable config (some name) (some r)
        ("sandbox run did not complete cleanly (" ++ r.exit.label ++ ")")
  | notFound : config.enablePropertyTests = true → r.isUsable = true →
      r.entryPointFound ≠ some true →
      Untestable config (some name) (some r) ("entry point '" ++ name ++ "' not found")
  | unsigned : config.enablePropertyTests = true → r.isUsable = true →
      r.entryPointFound = some true → r.signature = none →
      Untestable config (some name) (some r) ("signature of '" ++ name ++ "' unavailable")

/-- The ways of the property stage. -/
inductive PropertyStep (config : ValidatorConfig) (around : Surroundings) (source : String)
    (entryPoint : Option String) (executed : Executed) : Option String → Tested → Prop
  | halted : PropertyStep config around source entryPoint executed (some reason)
      ⟨.skipped .propertyTesting reason, none, executed.log⟩
  /-- There is nothing to test. -/
  | untested : propertyTarget config source entryPoint executed.run? = .error reason →
      PropertyStep config around source entryPoint executed none
        ⟨.skipped .propertyTesting reason, none, executed.log⟩
  | finished {log : Log} : propertyTarget config source entryPoint executed.run? = .ok target →
      Tester.campaign ⟨config.propertyTests, around.predicates⟩ target around.freshSeed
        = .ok session →
      session.Plays around.sandbox config.overallDeadline executed.log (.finished c) log →
      PropertyStep config around source entryPoint executed none
        ⟨c.stageResult config.thresholds.propertyTesting, some c, log⟩
  | overdue {log : Log} : propertyTarget config source entryPoint executed.run? = .ok target →
      Tester.campaign ⟨config.propertyTests, around.predicates⟩ target around.freshSeed
        = .ok session →
      config.overallDeadline = some deadline →
      session.Plays around.sandbox config.overallDeadline executed.log .cancelled log →
      PropertyStep config around source entryPoint executed none
        ⟨.timedOut .propertyTesting deadline .zero, none, log⟩

variable {config : ValidatorConfig} {around : Surroundings} {source : String}
  {entryPoint : Option String}

theorem staticStep (halted : Option String) :
    StaticStep config around source halted (staticStage config around source halted) := by
  cases halted with
  | some reason => exact .halted
  | none =>
    simp only [staticStage]
    split
    · rename_i he
      exact .disabled (by simpa using he)
    · rename_i he
      simp only [Bool.not_eq_true', Bool.not_eq_false] at he
      split
      · rename_i hd
        exact .finished he rfl fun deadline h => nomatch hd.symm.trans h
      · rename_i deadline hd
        split
        · refine .finished he rfl fun other h => ?_
          cases hd.symm.trans h
          assumption
        · rename_i hb
          exact .overdue he rfl hd (by simpa using hb)

theorem executionStep {elapsed : Duration} {halted : Option String} {executed : Executed}
    (h : executionStage config around source entryPoint elapsed halted = .ok executed) :
    ExecutionStep config around source entryPoint elapsed halted executed := by
  cases halted with
  | some reason => cases h; exact .halted
  | none =>
    simp only [executionStage] at h
    split at h
    · rename_i he
      cases h
      exact .disabled (by simpa using he)
    · rename_i he
      simp only [Bool.not_eq_true', Bool.not_eq_false] at he
      split at h
      · cases h
        exact .finished he (.of_eq ‹_›)
      · rename_i hp
        cases h
        have hp := Session.Plays.of_eq hp
        obtain ⟨deadline, hd⟩ := hp.deadline_of_cancelled
        rw [hd]
        exact .overdue he hd hp
      · cases h

theorem untestable {run? : Option RunResult} {reason : String}
    (h : propertyTarget config source entryPoint run? = .error reason) :
    Untestable config entryPoint run? reason := by
  simp only [propertyTarget] at h
  split at h
  · rename_i he
    cases h
    exact .disabled (by simpa using he)
  rename_i he
  simp only [Bool.not_eq_true', Bool.not_eq_false] at he
  split at h
  · cases h
    exact .unnamed he
  · cases h
    exact .notRun he
  split at h
  · rename_i hu
    cases h
    exact .unclean he (by simpa using hu)
  rename_i hu
  simp only [Bool.not_eq_true', Bool.not_eq_false] at hu
  split at h
  · rename_i hf
    cases h
    exact .notFound he hu hf
  rename_i hf
  split at h
  · rename_i hs
    cases h
    exact .unsigned he hu (Decidable.not_not.mp hf) hs
  · cases h

/-- Where there is something to test, the run of the source has all that it takes. -/
theorem isTestable_of_propertyTarget {run? : Option RunResult} {target : Target}
    (h : propertyTarget config source entryPoint run? = .ok target) :
    config.enablePropertyTests = true ∧ ∃ r, run? = some r ∧ r.IsTestable := by
  simp only [propertyTarget] at h
  split at h
  · cases h
  rename_i he
  simp only [Bool.not_eq_true', Bool.not_eq_false] at he
  refine ⟨he, ?_⟩
  split at h
  · cases h
  · cases h
  rename_i r
  split at h
  · cases h
  rename_i hu
  simp only [Bool.not_eq_true', Bool.not_eq_false] at hu
  split at h
  · cases h
  rename_i hf
  split at h
  · cases h
  rename_i hs
  exact ⟨r, rfl, hu, Decidable.not_not.mp hf, by rw [hs]; rfl⟩

theorem propertyStep {executed : Executed} {halted : Option String} {tested : Tested}
    (h : propertyStage config around source entryPoint executed halted = .ok tested) :
    PropertyStep config around source entryPoint executed halted tested := by
  cases halted with
  | some reason => cases h; exact .halted
  | none =>
    simp only [propertyStage] at h
    split at h
    · cases h
      exact .untested ‹_›
    · rename_i target ht
      obtain ⟨session, hs, h⟩ := exists_of_bind_eq_ok h
      replace hs := eq_ok_of_mapError hs
      split at h
      · cases h
        exact .finished ht hs (.of_eq ‹_›)
      · rename_i hp
        cases h
        have hp := Session.Plays.of_eq hp
        obtain ⟨deadline, hd⟩ := hp.deadline_of_cancelled
        rw [hd]
        exact .overdue ht hs hd hp
      · cases h

/-! ### The stages of the steps -/

theorem StaticStep.stage_eq {halted : Option String} {timed : Timed}
    (h : StaticStep config around source halted timed) :
    timed.result.stage = .staticAnalysis := by
  cases h <;> rfl

theorem executionResult_stage (r : RunResult) :
    (executionResult config entryPoint r).stage = .sandboxExecution := by
  unfold executionResult
  split <;> rfl

theorem ExecutionStep.stage_eq {halted : Option String} {executed : Executed}
    (h : ExecutionStep config around source entryPoint elapsed halted executed) :
    executed.result.stage = .sandboxExecution := by
  cases h with
  | finished => exact executionResult_stage _
  | _ => rfl

theorem PropertyStep.stage_eq {executed : Executed} {halted : Option String} {tested : Tested}
    (h : PropertyStep config around source entryPoint executed halted tested) :
    tested.result.stage = .propertyTesting := by
  cases h <;> rfl

/-! ### Halted stages -/

theorem StaticStep.eq_skipped {timed : Timed}
    (h : StaticStep config around source (some reason) timed) :
    timed = ⟨.skipped .staticAnalysis reason, .zero⟩ := by
  cases h
  rfl

theorem ExecutionStep.eq_skipped {executed : Executed}
    (h : ExecutionStep config around source entryPoint elapsed (some reason) executed) :
    executed = ⟨.skipped .sandboxExecution reason, none, startLog elapsed⟩ := by
  cases h
  rfl

theorem PropertyStep.eq_skipped {executed : Executed} {tested : Tested}
    (h : PropertyStep config around source entryPoint executed (some reason) tested) :
    tested = ⟨.skipped .propertyTesting reason, none, executed.log⟩ := by
  cases h
  rfl

/-! ### Courses -/

namespace Course

/-- The halt reason behind static analysis. -/
def secondHalt (stopOnFailure : Bool) (c : Course) : Option String :=
  firstHaltReason? stopOnFailure c.first <|> haltReason? stopOnFailure c.second.result

/-- The halt reason behind execution. -/
def thirdHalt (stopOnFailure : Bool) (c : Course) : Option String :=
  c.secondHalt stopOnFailure <|> haltReason? stopOnFailure c.third.result

/-- Every stage has taken a step, under the halt reason that the results before it leave. -/
structure Follows (config : ValidatorConfig) (around : Surroundings) (source : String)
    (entryPoint : Option String) (c : Course) : Prop where
  first : c.first = Prevalidation.run config.patterns config.prevalidation
    config.thresholds.prevalidation source.toList
  second : StaticStep config around source (firstHaltReason? config.stopOnFailure c.first) c.second
  third : ExecutionStep config around source entryPoint c.second.elapsed
    (c.secondHalt config.stopOnFailure) c.third
  fourth : PropertyStep config around source entryPoint c.third (c.thirdHalt config.stopOnFailure)
    c.fourth

theorem follows_of_run {c : Course} (h : Course.run config around source entryPoint = .ok c) :
    c.Follows config around source entryPoint := by
  unfold Course.run at h
  obtain ⟨third, ht, h⟩ := exists_of_bind_eq_ok h
  obtain ⟨fourth, hf, h⟩ := exists_of_bind_eq_ok h
  cases h
  exact ⟨rfl, staticStep _, executionStep ht, propertyStep hf⟩

end Course

theorem validate_eq_run (hc : config.validate = .ok ()) :
    validate config around source entryPoint = run config around source entryPoint := by
  rw [validate, hc]
  rfl

/-- A report is that of a valid configuration, and of a course whose stages have all taken a step. -/
theorem of_validate {v : Validation} (h : validate config around source entryPoint = .ok v) :
    config.validate = .ok () ∧ v.course.Follows config around source entryPoint ∧
      v = conclude config around source entryPoint v.course := by
  unfold validate at h
  obtain ⟨_, hc, h⟩ := exists_of_bind_eq_ok h
  obtain ⟨c, hr, rfl⟩ := exists_of_map_eq_ok h
  exact ⟨eq_ok_of_mapError hc, Course.follows_of_run hr, rfl⟩

theorem stages_of_validate {v : Validation} (h : validate config around source entryPoint = .ok v) :
    v.report.stages = v.course.results ++
      [ResourceGuard.check config.ceilings config.thresholds.resourceGuard v.usage] := by
  rw [(of_validate h).2.2]
  rfl

theorem Course.Follows.map_stage {c : Course} (h : c.Follows config around source entryPoint) :
    c.results.map (·.stage)
      = [.prevalidation, .staticAnalysis, .sandboxExecution, .propertyTesting] := by
  simp [results, h.first, h.second.stage_eq, h.third.stage_eq, h.fourth.stage_eq,
    Prevalidation.run_eq, StageResult.ofFindings]

/-- Each stage of a report is found under its name. -/
theorem stage?_of_validate {v : Validation} (h : validate config around source entryPoint = .ok v) :
    v.report.stage? .prevalidation = some v.course.first ∧
      v.report.stage? .staticAnalysis = some v.course.second.result ∧
      v.report.stage? .sandboxExecution = some v.course.third.result ∧
      v.report.stage? .propertyTesting = some v.course.fourth.result ∧
      v.report.stage? .resourceGuard = some
        (ResourceGuard.check config.ceilings config.thresholds.resourceGuard v.usage) := by
  obtain ⟨-, hf, -⟩ := of_validate h
  have h1 : v.course.first.stage = .prevalidation := by rw [hf.first]; rfl
  have h5 : (ResourceGuard.check config.ceilings config.thresholds.resourceGuard v.usage).stage
    = .resourceGuard := rfl
  simp [Report.stage?, stages_of_validate h, Course.results, h1,
    hf.second.stage_eq, hf.third.stage_eq, hf.fourth.stage_eq, h5]

/-! ### Scripted surroundings -/

/-- A sandbox that gives the replies of a list one after the other, and the last of them ever after. -/
def scriptedSandbox (replies : List Reply) (last : Reply) : Sandbox :=
  fun earlier _ => replies.getD earlier.length last

/-- Surroundings without analyzers and predicates. -/
def scripted (sandbox : Sandbox) : Surroundings := ⟨[], [], sandbox, 3, .zero, ⟨0, 0⟩⟩

/-- A run that has found a function of one integer. -/
def cleanRun : RunResult :=
  { RunResult.aborted .subprocess .ok ⟨"", "", none⟩ .zero with
    exception := none
    entryPointFound := some true
    signature := some ⟨[⟨"x", some "int", "POSITIONAL_OR_KEYWORD", false⟩], some "int"⟩ }

end Validation

end Vetting
