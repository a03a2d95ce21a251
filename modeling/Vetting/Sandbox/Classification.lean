import Vetting.Child
import Vetting.Config
import Vetting.Sandbox.Failure
import Vetting.Sandbox.InnerReport

/-!
From a child process to the result of a run. The watchdog and the kernel come first, then the report from
inside, and only where there is none, the way in which the process ended.
-/

namespace Vetting

/-- What is left of a child process that was watched. -/
structure Watched where
  /-- How the child ended; nothing if the watchdog stopped it. -/
  status : Option ExitStatus
  stdout : List UInt8
  stderr : List UInt8
  /-- Whether a stream was longer than what is kept of it. -/
  truncated : Bool

namespace Watched

/-- A child that the watchdog stopped. -/
def stopped : Watched := ⟨none, [], [], false⟩

/-- A child that ended, with at most `cap` bytes of each stream. -/
def ofChild (cap : Nat) (c : Child) : Watched where
  status := some c.status
  stdout := c.stdout.take cap
  stderr := c.stderr.take cap
  truncated := decide (cap < c.stdout.length) || decide (cap < c.stderr.length)

def stdoutText (w : Watched) : List Char := Text.ofUtf8 w.stdout

/-- How many lines of the error stream are shown. -/
def shownLines : Nat := 5

/-- The last lines of the error stream. -/
def stderrTail (w : Watched) : String :=
  let lines := Text.lines (Text.ofUtf8 w.stderr)
  "\n".intercalate ((lines.drop (lines.length - shownLines)).map String.ofList)

/-- Whether some lines speak of the exception for memory that has run out. -/
def speaksOfMemory (w : Watched) : Bool := containsText "MemoryError".toList w.stderrTail.toList
where
  containsText (part : List Char) : List Char → Bool
    | [] => part.isEmpty
    | c :: rest => (Text.dropPrefix? part (c :: rest)).isSome || containsText part rest

end Watched

namespace SandboxConfig

/-- How many bytes of each stream are kept: room for a report with both captured streams in it. -/
def reportReadCap (c : SandboxConfig) : Nat :=
  min maxBytes (min maxBytes (c.outputLimitBytes * 8) + 1024 * 1024)

end SandboxConfig

/-- The exit of a process that ended without a report. When nobody here has stopped it, a kill means that
memory ran out. -/
def silentExit (w : Watched) : Exit :=
  if w.status = some (.code 137) || w.status = some (.signal ExitStatus.kill) || w.speaksOfMemory then
    .oom
  else .runtimeError

/-- The result of a run that gave no report. -/
def silentResult (backend : Backend) (w : Watched) (wallTime : Duration) : RunResult :=
  let exit := silentExit w
  let status := match w.status with
    | some s => s.render
    | none => "no status"
  .aborted backend exit
    ⟨if exit = .oom then "MemoryError" else "SandboxExit",
      "interpreter exited (" ++ status ++ ") without a report: " ++ w.stderrTail, none⟩ wallTime

/-- The result of a run with a report. One that says all is well counts only if the process ended well. -/
def reportedResult (backend : Backend) (w : Watched) (r : InnerReport) (wallTime : Duration) :
    RunResult :=
  let exit := if r.exit = .ok && w.status ≠ some (.code 0) then .runtimeError else r.exit
  let result := r.toResult backend exit wallTime
  { result with outputTruncated := result.outputTruncated || w.truncated }

/-- The result of a run whose process was watched. -/
def classify (backend : Backend) (config : SandboxConfig) (w : Watched) (wallTime : Duration) :
    RunResult :=
  if w.status = none || w.status = some (.signal ExitStatus.cpuTimeExceeded) then
    .ofTimeout backend config.timeout wallTime
  else match InnerReport.ofStdout? w.stdoutText with
    | some r => reportedResult backend w r wallTime
    | none => silentResult backend w wallTime

end Vetting
