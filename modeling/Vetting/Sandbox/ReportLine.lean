import Vetting.Json.Ascii
import Vetting.Sandbox.InnerReport

/-!
How the program inside a sandbox writes the report about a run that called nothing: one line behind the mark, with a
line feed before it in case the code under test has left a line open.
-/

namespace Vetting

/-- The name of a status in a report. -/
def InnerStatus.name : InnerStatus → String
  | .ok => "ok"
  | .runtimeError => "runtime_error"
  | .syntaxError => "syntax_error"
  | .forbidden => "forbidden"
  | .oom => "oom"
  | .timeout => "timeout"

/-- A report that tells of no calls, exception, signature or violations. -/
structure QuietReport where
  status : InnerStatus
  stdout : String
  stderr : String
  outputTruncated : Bool
  entryPointFound : Option Bool
  peakMemoryBytes : Option UInt64
  cpuSeconds : Json.Ascii.Numeral

namespace QuietReport

open Json

/-- What the report says. -/
def report (r : QuietReport) : InnerReport where
  status := r.status
  stdout := r.stdout
  stderr := r.stderr
  outputTruncated := r.outputTruncated
  returnValue := none
  exception := none
  signature := none
  entryPointFound := r.entryPointFound
  calls := []
  peakMemoryBytes := r.peakMemoryBytes.map UInt64.toNat
  cpuSeconds := some r.cpuSeconds.value
  violations := []

/-- The fields in the order in which they are written. -/
def fields (r : QuietReport) : List (String × List Char) := [
  ("status", Ascii.quote r.status.name), ("stdout", Ascii.quote r.stdout), ("stderr", Ascii.quote r.stderr),
  ("output_truncated", Ascii.bool r.outputTruncated), ("return_value", "null".toList), ("exception", "null".toList),
  ("signature", "null".toList), ("entry_point_found", Ascii.orNull Ascii.bool r.entryPointFound),
  ("calls", "[]".toList),
  ("peak_memory_bytes", Ascii.orNull (fun n => Ascii.nat n.toNat) r.peakMemoryBytes),
  ("cpu_seconds", r.cpuSeconds.text), ("violations", "[]".toList)]

def document (r : QuietReport) : List Char := Ascii.object r.fields

/-- What is written at the end of the run. -/
def line (r : QuietReport) : List Char := '\n' :: (InnerReport.sentinel ++ (r.document ++ ['\n']))

/-- All of it is ASCII, so each character is a byte. -/
def bytes (r : QuietReport) : List UInt8 := r.line.map fun c => c.toNat.toUInt8

end QuietReport

end Vetting
