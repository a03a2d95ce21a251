import Vetting.Execution
import Vetting.Text.Lines
import Vetting.Text.Blank

/-!
The report that the program inside a sandbox writes about a run. It stands on a line of its output behind
a mark; the code under test can write such lines too, so only the last one counts.
-/

namespace Vetting

/-- How a run ended, as the program inside the sandbox sees it. -/
inductive InnerStatus
  | ok
  | runtimeError
  | syntaxError
  | forbidden
  | oom
  | timeout
deriving DecidableEq

namespace InnerStatus

def choices : List (String × InnerStatus) := [
  ("ok", .ok), ("runtime_error", .runtimeError), ("syntax_error", .syntaxError),
  ("forbidden", .forbidden), ("oom", .oom), ("timeout", .timeout)]

def exit : InnerStatus → Exit
  | .ok => .ok
  | .runtimeError => .runtimeError
  | .syntaxError => .runtimeError
  | .forbidden => .forbiddenOperation
  | .oom => .oom
  | .timeout => .timeout

end InnerStatus

/-- The report from inside a sandbox. -/
structure InnerReport where
  status : InnerStatus
  stdout : String
  stderr : String
  outputTruncated : Bool
  returnValue : Option Json
  exception : Option ExceptionSummary
  signature : Option Signature
  entryPointFound : Option Bool
  calls : List CallOutcome
  peakMemoryBytes : Option Nat
  cpuSeconds : Option Binary64
  /-- What the code tried to do and must not, in order. -/
  violations : List String

namespace InnerReport

def shape : Json.Shape InnerReport where
  name := "struct HarnessReport"
  start := ⟨.ok, "", "", false, none, none, none, none, [], none, none, []⟩
  fields := [
    .required "status" (.variant InnerStatus.choices) fun v r => { r with status := v },
    .defaulted "stdout" .string fun v r => { r with stdout := v },
    .defaulted "stderr" .string fun v r => { r with stderr := v },
    .defaulted "output_truncated" .bool fun v r => { r with outputTruncated := v },
    .nullable "return_value" .any fun v r => { r with returnValue := v },
    .nullable "exception" ExceptionSummary.shape.decoder fun v r => { r with exception := v },
    .nullable "signature" Signature.shape.decoder fun v r => { r with signature := v },
    .nullable "entry_point_found" .bool fun v r => { r with entryPointFound := v },
    .defaulted "calls" (.list CallOutcome.decoder) fun v r => { r with calls := v },
    .nullable "peak_memory_bytes" .u64 fun v r => { r with peakMemoryBytes := v },
    .defaulted "cpu_seconds" (.optional .f64) fun v r => { r with cpuSeconds := v },
    .defaulted "violations" (.list .string) fun v r => { r with violations := v }]

/-- The mark before a report. -/
def sentinel : List Char := "__SANDBOX_RESULT__".toList

/-- The document behind the last mark that starts a line. -/
def lastMarked? (stdout : List Char) : Option (List Char) :=
  (Text.lines stdout).reverse.findSome? (Text.dropPrefix? sentinel)

/-- The report in what was written, if the last marked line holds one. -/
def ofStdout? (stdout : List Char) : Option InnerReport :=
  (lastMarked? stdout).bind fun document => (shape.decoder.ofText (String.ofList document)).toOption

/-- The exit that the report tells. A violation counts even if the code went on after it. -/
def exit (r : InnerReport) : Exit :=
  if r.violations.isEmpty then r.status.exit else .forbiddenOperation

/-- The exception of the report, or else its last violation in that form. -/
def exception? (r : InnerReport) : Option ExceptionSummary :=
  match r.exception, r.violations.getLast? with
  | some e, _ => some e
  | none, some violation => some ⟨"ForbiddenOperation", violation, none⟩
  | none, none => none

/-- The result of a run with this report. -/
def toResult (r : InnerReport) (backend : Backend) (exit : Exit) (wallTime : Duration) :
    RunResult where
  backend := backend
  exit := exit
  state := exit.terminalState
  stdout := r.stdout
  stderr := r.stderr
  outputTruncated := r.outputTruncated
  returnValue := r.returnValue
  exception := r.exception?
  signature := r.signature
  entryPointFound := r.entryPointFound
  calls := r.calls
  wallTime := wallTime
  peakMemoryBytes := r.peakMemoryBytes
  cpuTime := r.cpuSeconds.bind fun s => (Duration.ofSeconds s).toOption

end InnerReport

end Vetting
