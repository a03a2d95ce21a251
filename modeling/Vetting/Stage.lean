import Vetting.Duration
import Vetting.Execution

/-!
The stages of a validation and their results. A result's status follows from its findings: a stage
fails exactly when a finding reaches the threshold given to it.
-/

namespace Vetting

/-- The stages, in the order in which they run. -/
inductive StageId
  | prevalidation
  | staticAnalysis
  | sandboxExecution
  | propertyTesting
  | resourceGuard
deriving DecidableEq

namespace StageId

/-- Every stage, in order. -/
def pipeline : List StageId :=
  [.prevalidation, .staticAnalysis, .sandboxExecution, .propertyTesting, .resourceGuard]

def name : StageId → String
  | .prevalidation => "prevalidation"
  | .staticAnalysis => "static_analysis"
  | .sandboxExecution => "sandbox_execution"
  | .propertyTesting => "property_testing"
  | .resourceGuard => "resource_guard"

def toJson (s : StageId) : Json := .str s.name

def decoder : Json.Decoder StageId := .variant (pipeline.map fun s => (s.name, s))

end StageId

inductive StageStatus
  /-- No finding reached the threshold. -/
  | passed
  /-- A finding reached the threshold. -/
  | failed
  /-- The stage did not run. -/
  | skipped
  /-- The overall deadline cut the stage short. -/
  | timedOut
  /-- The stage's own machinery failed. -/
  | errored
deriving DecidableEq

namespace StageStatus

def all : List StageStatus := [.passed, .failed, .skipped, .timedOut, .errored]

def label : StageStatus → String
  | .passed => "PASSED"
  | .failed => "FAILED"
  | .skipped => "SKIPPED"
  | .timedOut => "TIMED_OUT"
  | .errored => "ERRORED"

/-- Whether the stages behind are given up when a failure is to stop the pipeline. -/
def haltsPipeline : StageStatus → Bool
  | .passed => false
  | .skipped => false
  | _ => true

def toJson (s : StageStatus) : Json := .str s.label

def decoder : Json.Decoder StageStatus := .variant (all.map fun s => (s.label, s))

end StageStatus

/-- The result of one stage. -/
structure StageResult where
  stage : StageId
  status : StageStatus
  findings : List Finding
  duration : Duration
  /-- Why the stage did not run. -/
  skipReason : Option String
deriving DecidableEq

namespace StageResult

/-- Whether a finding reaches the threshold. -/
def reaches (threshold : Severity) (findings : List Finding) : Bool :=
  findings.any fun f => decide (threshold ≤ f.severity)

/-- A result whose status follows from its findings. -/
def ofFindings (stage : StageId) (findings : List Finding) (threshold : Severity)
    (duration : Duration) : StageResult :=
  ⟨stage, if reaches threshold findings then .failed else .passed, findings, duration, none⟩

theorem ofFindings_status_eq_failed_iff {stage : StageId} {findings : List Finding}
    {threshold : Severity} {duration : Duration} :
    (ofFindings stage findings threshold duration).status = .failed ↔
      ∃ f ∈ findings, threshold ≤ f.severity := by
  simp [ofFindings, reaches]

/-- A status that follows from findings is one of two. -/
theorem ofFindings_status {stage : StageId} {findings : List Finding} {threshold : Severity}
    {duration : Duration} :
    (ofFindings stage findings threshold duration).status = .passed ∨
      (ofFindings stage findings threshold duration).status = .failed := by
  unfold ofFindings
  split <;> simp

theorem ofFindings_status_ne {stage : StageId} {findings : List Finding} {threshold : Severity}
    {duration : Duration} {status : StageStatus} (h : status ≠ .passed ∧ status ≠ .failed) :
    (ofFindings stage findings threshold duration).status ≠ status := by
  rintro rfl
  rcases ofFindings_status with hp | hf
  · exact h.1 hp
  · exact h.2 hf

def skipped (stage : StageId) (reason : String) : StageResult :=
  ⟨stage, .skipped, [], .zero, some reason⟩

/-- A stage that the overall deadline cut short. -/
def timedOut (stage : StageId) (deadline duration : Duration) : StageResult :=
  ⟨stage, .timedOut,
    [.coded .error "deadline-exceeded"
      ("stage cancelled: overall deadline of " ++ deadline.toSeconds.fixedText 3 ++ "s exceeded")],
    duration, none⟩

/-- A stage whose own machinery failed. -/
def errored (stage : StageId) (findings : List Finding) (duration : Duration) : StageResult :=
  ⟨stage, .errored, findings, duration, none⟩

def maxSeverity (r : StageResult) : Option Severity := Vetting.maxSeverity r.findings

def toJson (r : StageResult) : Json :=
  .obj ([("stage", r.stage.toJson), ("status", r.status.toJson),
      ("findings", .arr (r.findings.map Finding.toJson)), ("duration", r.duration.millisJson)]
    ++ Finding.fieldIfSome "skip_reason" (r.skipReason.map .str))

def shape : Json.Shape StageResult where
  name := "struct StageResult"
  start := ⟨.prevalidation, .passed, [], .zero, none⟩
  fields := [
    .required "stage" StageId.decoder fun v r => { r with stage := v },
    .required "status" StageStatus.decoder fun v r => { r with status := v },
    .required "findings" (.list Finding.shape.decoder) fun v r => { r with findings := v },
    .required "duration" Duration.millisDecoder fun v r => { r with duration := v },
    .defaulted "skip_reason" (.optional .string) fun v r => { r with skipReason := v }]

end StageResult

end Vetting
