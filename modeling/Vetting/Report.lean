import Vetting.Stage
import Vetting.Timestamp
import Vetting.Property.Result

/-!
The report of a validation: the results of its stages, the verdict that follows from them, and what
the sandbox and the property tests produced.
-/

namespace Vetting

/-- What a validation comes to. -/
inductive Verdict
  /-- Every stage that ran has passed. -/
  | passed
  /-- A stage failed. -/
  | failed
  /-- No stage failed, but one was cut short or could not do its work. -/
  | error
deriving DecidableEq

namespace Verdict

def all : List Verdict := [.passed, .failed, .error]

def label : Verdict → String
  | .passed => "PASSED"
  | .failed => "FAILED"
  | .error => "ERROR"

/-- The verdict on stage results: a failure counts more than a stage without result. -/
def ofStages (stages : List StageResult) : Verdict :=
  if stages.any (·.status = .failed) then .failed
  else if stages.any fun s => s.status = .timedOut || s.status = .errored then .error
  else .passed

/-- The exit code of a process that reports the verdict. -/
def exitCode : Verdict → Nat
  | .passed => 0
  | .failed => 1
  | .error => 2

def toJson (v : Verdict) : Json := .str v.label

def decoder : Json.Decoder Verdict := .variant (all.map fun v => (v.label, v))

end Verdict

/-- The report of one validation. -/
structure Report where
  status : Verdict
  stages : List StageResult
  totalDuration : Duration
  sourceDigest : String
  entryPoint : Option String
  execution : Option RunResult
  properties : List PropertyResult
  generatedAt : Timestamp
deriving BEq

namespace Report

/-- A report whose verdict follows from its stages. -/
def ofStages (stages : List StageResult) (totalDuration : Duration) (sourceDigest : String)
    (entryPoint : Option String) (execution : Option RunResult) (properties : List PropertyResult)
    (generatedAt : Timestamp) : Report :=
  ⟨.ofStages stages, stages, totalDuration, sourceDigest, entryPoint, execution, properties,
    generatedAt⟩

/-- The result of a stage; the first if there are several. -/
def stage? (r : Report) (id : StageId) : Option StageResult := r.stages.find? (·.stage = id)

def passed (r : Report) : Bool := r.status = .passed

def exitCode (r : Report) : Nat := r.status.exitCode

/-- All findings with their stages, in order. -/
def findings (r : Report) : List (StageId × Finding) :=
  r.stages.flatMap fun s => s.findings.map fun f => (s.stage, f)

/-- The weights of all findings together. -/
def score (r : Report) : Nat := r.findings.foldr (fun (_, f) total => f.severity.weight + total) 0

def toJson (r : Report) : Json :=
  .obj ([("status", r.status.toJson), ("stages", .arr (r.stages.map StageResult.toJson)),
      ("total_duration", r.totalDuration.millisJson), ("source_digest", .str r.sourceDigest)]
    ++ Finding.fieldIfSome "entry_point" (r.entryPoint.map .str)
    ++ Finding.fieldIfSome "execution" (r.execution.map RunResult.toJson)
    ++ [("properties", .arr (r.properties.map PropertyResult.toJson)),
      ("generated_at", .str r.generatedAt.toText)])

def timestampDecoder : Json.Decoder Timestamp := fun _ doc =>
  match doc with
  | .str (.ok s) => (Timestamp.ofText s).mapError fun e => .refused e.message
  | other => .error (Json.mismatch "an RFC 3339 formatted date and time string" other)

def shape : Json.Shape Report where
  name := "struct ValidationReport"
  start := .ofStages [] .zero "" none none [] ⟨0, 0⟩
  fields := [
    .required "status" Verdict.decoder fun v r => { r with status := v },
    .required "stages" (.list StageResult.shape.decoder) fun v r => { r with stages := v },
    .required "total_duration" Duration.millisDecoder fun v r => { r with totalDuration := v },
    .required "source_digest" .string fun v r => { r with sourceDigest := v },
    .defaulted "entry_point" (.optional .string) fun v r => { r with entryPoint := v },
    .defaulted "execution" (.optional RunResult.shape.decoder) fun v r => { r with execution := v },
    .defaulted "properties" (.list PropertyResult.shape.decoder) fun v r => { r with properties := v },
    .required "generated_at" timestampDecoder fun v r => { r with generatedAt := v }]

end Report

end Vetting
