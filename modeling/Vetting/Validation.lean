import Vetting.Analyzer.Tool
import Vetting.Digest
import Vetting.Prevalidation
import Vetting.Property.Campaign
import Vetting.Report
import Vetting.Sandbox.Execute

/-!
Validations: the stages in their order, under one configuration. A stage that is not reached is skipped
with a reason; the resource guard always runs. `Validation.run` gives the report together with what was
asked of the sandbox, and `isSafe` is the verdict that executes nothing.
-/

namespace Vetting

/-- What a validation works with besides its configuration. -/
structure Surroundings where
  /-- All analyzers, in the order of their findings. -/
  analyzers : List Analyzer
  /-- The properties that are tested behind the built-in ones. -/
  predicates : List Predicate
  sandbox : Sandbox
  /-- The seed for arguments when the configuration names none. -/
  freshSeed : Nat
  /-- How long the validation is measured to take. -/
  wallTime : Duration
  finishedAt : Timestamp

/-- Why a validation gives no report. -/
inductive ValidationError
  | invalid (cause : ConfigError)
  /-- Arguments cannot be drawn from a configured range. -/
  | undrawable (cause : RangeFault)
  /-- A run never ends, and there is no deadline. -/
  | endless

namespace Validation

/-! ### Going on or not -/

/-- The reason for skipping everything behind a source that is no program. -/
def unparsedReason : String := "source does not parse"

/-- The reason for skipping everything behind the deadline. -/
def deadlineReason : String := "overall deadline exceeded"

/-- A status that stops the pipeline, in words. -/
def statusWord : StageStatus → String
  | .failed => "failed"
  | .errored => "errored"
  | .timedOut => "timed out"
  | .passed => "passed"
  | .skipped => "was skipped"

def stoppedReason (r : StageResult) : String :=
  "stopped after " ++ r.stage.name ++ " " ++ statusWord r.status

/-- Why the stages behind a result are skipped, if they are. -/
def haltReason? (stopOnFailure : Bool) (r : StageResult) : Option String :=
  if r.status = .timedOut then some deadlineReason
  else if stopOnFailure && r.status.haltsPipeline then some (stoppedReason r)
  else none

/-- The same behind the first stage, where a source that is no program stops everything. -/
def firstHaltReason? (stopOnFailure : Bool) (r : StageResult) : Option String :=
  if Prevalidation.isSyntaxFailure r then some unparsedReason else haltReason? stopOnFailure r

/-! ### Static analysis -/

/-- A stage that takes virtual time, and when it is over. -/
structure Timed where
  result : StageResult
  elapsed : Duration

def staticStage (config : ValidatorConfig) (around : Surroundings) (source : String)
    (halted : Option String) : Timed :=
  match halted with
  | some reason => ⟨.skipped .staticAnalysis reason, .zero⟩
  | none =>
    if !config.staticAnalysis.enabled then
      ⟨.skipped .staticAnalysis "static analysis disabled", .zero⟩
    else
      let analysis := Analysis.run (.ofConfig config.staticAnalysis) around.analyzers source
      let result := analysis.stageResult config.thresholds.staticAnalysis
      match config.overallDeadline with
      | none => ⟨result, analysis.duration⟩
      | some deadline =>
        if analysis.endsBy deadline then ⟨result, analysis.duration⟩
        else ⟨.timedOut .staticAnalysis deadline .zero, deadline⟩

/-! ### Execution -/

/-- The finding that tells how a run ended. -/
def exitFinding (config : SandboxConfig) (r : RunResult) : Finding :=
  let exception := match r.exception with
    | some e => e.render
    | none => ""
  match r.exit with
  | .ok => .coded .info "execution-ok" ("execution completed on " ++ r.backend.name ++ " backend")
  | .timeout =>
    .coded .error "sandbox-timeout" ("execution exceeded the "
      ++ config.timeout.toSeconds.fixedText 3 ++ "s timeout")
  | .oom =>
    .coded .error "sandbox-oom" ("execution exceeded the " ++ toString config.memoryMegabytes
      ++ " MiB memory ceiling")
  | .runtimeError => .coded .error "sandbox-runtime-error" ("execution raised " ++ exception)
  | .forbiddenOperation =>
    .coded .critical "sandbox-forbidden" ("forbidden operation at runtime: " ++ exception)

def missingFinding? (entryPoint : Option String) (r : RunResult) : Option Finding :=
  match entryPoint, r.entryPointFound with
  | some name, some false =>
    some (.coded .error "entry-point-missing" ("entry point '" ++ name ++ "' is not defined"))
  | _, _ => none

def truncationFinding? (config : SandboxConfig) (r : RunResult) : Option Finding :=
  if r.outputTruncated then
    some (.coded .warning "output-truncated" ("captured output truncated at "
      ++ toString config.outputLimitBytes ++ " bytes"))
  else none

/-- Whether a run tells of a failure of the sandbox itself. -/
def isMachineryFailure (r : RunResult) : Bool :=
  r.exception.any fun e => e.errorType = RunResult.machineryError

/-- The result of the stage for a run that came back. -/
def executionResult (config : ValidatorConfig) (entryPoint : Option String) (r : RunResult) :
    StageResult :=
  if isMachineryFailure r then
    let message := match r.exception with
      | some e => e.render
      | none => ""
    .errored .sandboxExecution [.coded .error "sandbox-unavailable" message] .zero
  else
    .ofFindings .sandboxExecution
      (exitFinding config.sandbox r :: ((missingFinding? entryPoint r).toList
        ++ (truncationFinding? config.sandbox r).toList))
      config.thresholds.sandbox .zero

/-- The execution stage, with the run if one came back. -/
structure Executed where
  result : StageResult
  run? : Option RunResult
  log : Log

def executionStage (config : ValidatorConfig) (around : Surroundings) (source : String)
    (entryPoint : Option String) (elapsed : Duration) (halted : Option String) :
    Except ValidationError Executed :=
  let log : Log := { Log.empty with elapsed := elapsed }
  match halted with
  | some reason => .ok ⟨.skipped .sandboxExecution reason, none, log⟩
  | none =>
    if !config.enableSandbox then .ok ⟨.skipped .sandboxExecution "sandbox disabled", none, log⟩
    else
      match (Session.ask ⟨source, entryPoint, []⟩).play around.sandbox config.overallDeadline log with
      | (.finished r, log) => .ok ⟨executionResult config entryPoint r, some r, log⟩
      | (.cancelled, log) =>
        .ok ⟨.timedOut .sandboxExecution (config.overallDeadline.getD .zero) .zero, none, log⟩
      | (.stuck, _) => .error .endless

/-! ### Property tests -/

/-- What the property tests are about, or why there are none. -/
def propertyTarget (config : ValidatorConfig) (source : String) (entryPoint : Option String)
    (run? : Option RunResult) : Except String Target :=
  if !config.enablePropertyTests then .error "property testing disabled"
  else match entryPoint, run? with
    | none, _ => .error "no target entry point supplied"
    | some _, none => .error "sandbox did not run"
    | some name, some r =>
      if !r.isUsable then
        .error ("sandbox run did not complete cleanly (" ++ r.exit.label ++ ")")
      else if r.entryPointFound ≠ some true then .error ("entry point '" ++ name ++ "' not found")
      else match r.signature with
        | none => .error ("signature of '" ++ name ++ "' unavailable")
        | some signature => .ok ⟨source, name, signature⟩

/-- The property stage, with the campaign if it was finished. -/
structure Tested where
  result : StageResult
  campaign? : Option Campaign
  log : Log

def propertyStage (config : ValidatorConfig) (around : Surroundings) (source : String)
    (entryPoint : Option String) (executed : Executed) (halted : Option String) :
    Except ValidationError Tested :=
  let target : Except String Target := match halted with
    | some reason => .error reason
    | none => propertyTarget config source entryPoint executed.run?
  match target with
  | .error reason => .ok ⟨.skipped .propertyTesting reason, none, executed.log⟩
  | .ok target => do
    let tester : Tester := ⟨config.propertyTests, around.predicates⟩
    let session ← (tester.campaign target around.freshSeed).mapError ValidationError.undrawable
    match session.play around.sandbox config.overallDeadline executed.log with
    | (.finished c, log) =>
      return ⟨c.stageResult config.thresholds.propertyTesting, some c, log⟩
    | (.cancelled, log) =>
      return ⟨.timedOut .propertyTesting (config.overallDeadline.getD .zero) .zero, none, log⟩
    | (.stuck, _) => throw ValidationError.endless

/-! ### Whole validations -/

/-- How the stages before the resource guard went. -/
structure Course where
  first : StageResult
  second : Timed
  third : Executed
  fourth : Tested

namespace Course

/-- Runs the stages before the resource guard, one after the other. -/
def run (config : ValidatorConfig) (around : Surroundings) (source : String)
    (entryPoint : Option String) : Except ValidationError Course := do
  let first := Prevalidation.run config.patterns config.prevalidation config.thresholds.prevalidation
    source.toList
  let halted := firstHaltReason? config.stopOnFailure first
  let second := staticStage config around source halted
  let halted := halted <|> haltReason? config.stopOnFailure second.result
  let third ← executionStage config around source entryPoint second.elapsed halted
  let halted := halted <|> haltReason? config.stopOnFailure third.result
  let fourth ← propertyStage config around source entryPoint third halted
  return ⟨first, second, third, fourth⟩

/-- The results of the stages, in order. -/
def results (c : Course) : List StageResult :=
  [c.first, c.second.result, c.third.result, c.fourth.result]

/-- The results of the property tests; there are none without a campaign that was finished. -/
def properties (c : Course) : List PropertyResult :=
  match c.fourth.campaign? with
  | some campaign => campaign.results
  | none => []

end Course

/-- What is counted against the ceilings: the run of the source and a campaign that was finished. -/
def usageOf (wallTime : Duration) (c : Course) : ResourceUsage :=
  let usage : ResourceUsage := match c.third.run? with
    | some r => ResourceUsage.record {} r
    | none => {}
  let usage := match c.fourth.campaign? with
    | some campaign =>
      (usage.recordPeak campaign.usage.peakMemoryBytes).addCpuTime (some campaign.usage.cpuTime)
    | none => usage
  { usage with wallTime := wallTime }

end Validation

/-- A finished validation. -/
structure Validation where
  course : Validation.Course
  /-- What was held against the ceilings. -/
  usage : ResourceUsage
  report : Report

namespace Validation

/-- What was asked of the sandbox. -/
def log (v : Validation) : Log := v.course.fourth.log

/-- Ends a validation with the resource guard and the report. -/
def conclude (config : ValidatorConfig) (around : Surroundings) (source : String)
    (entryPoint : Option String) (c : Course) : Validation :=
  let usage := usageOf around.wallTime c
  let last := ResourceGuard.check config.ceilings config.thresholds.resourceGuard usage
  { course := c
    usage := usage
    report := .ofStages (c.results ++ [last]) around.wallTime (Digest.ofText source) entryPoint
      c.third.run? c.properties around.finishedAt }

/-- Runs all stages under a configuration that is valid. -/
def run (config : ValidatorConfig) (around : Surroundings) (source : String)
    (entryPoint : Option String) : Except ValidationError Validation :=
  (Course.run config around source entryPoint).map (conclude config around source entryPoint)

end Validation

/-- Validates a source, if the configuration is valid. -/
def validate (config : ValidatorConfig) (around : Surroundings) (source : String)
    (entryPoint : Option String) : Except ValidationError Validation := do
  config.validate.mapError ValidationError.invalid
  Validation.run config around source entryPoint

/-- The verdict without execution: the first stage passes, and so does the analysis, if there is one. -/
def isSafe (config : ValidatorConfig) (analyzers : List Analyzer) (source : String) : Bool :=
  let first := Prevalidation.run config.patterns config.prevalidation config.thresholds.prevalidation
    source.toList
  if first.status ≠ .passed then false
  else if !config.staticAnalysis.enabled || analyzers.isEmpty then true
  else
    let analysis := Analysis.run (.ofConfig config.staticAnalysis) analyzers source
    (analysis.stageResult config.thresholds.staticAnalysis).status = .passed

theorem isSafe_iff {config : ValidatorConfig} {analyzers : List Analyzer} {source : String} :
    isSafe config analyzers source = true ↔
      (Prevalidation.run config.patterns config.prevalidation config.thresholds.prevalidation
        source.toList).status = .passed ∧
      (config.staticAnalysis.enabled = false ∨ analyzers = [] ∨
        ((Analysis.run (.ofConfig config.staticAnalysis) analyzers source).stageResult
          config.thresholds.staticAnalysis).status = .passed) := by
  simp only [isSafe, ne_eq, ite_not]
  split
  case isTrue hp =>
    split
    case isTrue h =>
      simp only [Bool.or_eq_true, Bool.not_eq_true', List.isEmpty_iff] at h
      simp only [hp, true_and, true_iff]
      exact h.imp_right .inl
    case isFalse h =>
      simp only [Bool.or_eq_true, Bool.not_eq_true', List.isEmpty_iff, not_or] at h
      simp [hp, h.1, h.2]
  case isFalse hp => simp [hp]

end Vetting
