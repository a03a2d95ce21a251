import Vetting.Sandbox.Lifecycle

/-!
Failures of the sandbox itself, as opposed to what the code in it does, and the end of a run: whatever
came of it, the result is in the terminal state that goes with its exit.
-/

namespace Vetting

/-- A failure of the sandbox itself. -/
inductive SandboxError
  /-- There is no such interpreter or container runtime. -/
  | interpreterNotFound (program : String)
  | notStarted (reason : String)
  | io (reason : String)
  /-- The job cannot be written as a document. -/
  | notEncoded (reason : String)
  /-- The report of an embedded interpreter cannot be read. -/
  | protocol (reason : String)
  | embedded (reason : String)
  /-- An embedded interpreter still has a run that was given up. -/
  | poisoned
  | invalidTransition (transition : InvalidTransition)
deriving DecidableEq

def SandboxError.message : SandboxError → String
  | .interpreterNotFound program => "interpreter '" ++ program ++ "' not found"
  | .notStarted reason => "failed to spawn sandbox process: " ++ reason
  | .io reason => "sandbox I/O error: " ++ reason
  | .notEncoded reason => "failed to encode harness job: " ++ reason
  | .protocol reason => "harness protocol error: " ++ reason
  | .embedded reason => "embedded interpreter error: " ++ reason
  | .poisoned => "embedded interpreter poisoned by an abandoned run"
  | .invalidTransition t => t.message

namespace RunResult

/-- The type of exception that stands for a failure of the sandbox itself. -/
def machineryError : String := "SandboxError"

/-- The result of a run that the sandbox itself spoiled. -/
def ofFailure (backend : Backend) (e : SandboxError) (wallTime : Duration) : RunResult :=
  .aborted backend .runtimeError ⟨machineryError, e.message, none⟩ wallTime

/-- The result of a run that was stopped because its time was over. -/
def ofTimeout (backend : Backend) (limit wallTime : Duration) : RunResult :=
  .aborted backend .timeout
    ⟨"Timeout", "execution exceeded " ++ limit.toSeconds.fixedText 3 ++ "s", none⟩ wallTime

end RunResult

namespace Lifecycle

/-- Ends a run with its result, which gets the state that goes with its exit. -/
def settle (l : Lifecycle) (r : RunResult) : RunResult :=
  match l.finish r.exit with
  | .ok ended => { r with state := ended.state }
  | .error t => .ofFailure l.backend (.invalidTransition t) r.wallTime

end Lifecycle

/-- A whole run of a backend, given what comes of it once it is running. -/
def Backend.conclude (backend : Backend) (inner : Except SandboxError RunResult) (wallTime : Duration) :
    RunResult :=
  match (Lifecycle.ofBackend backend).start with
  | .error t => .ofFailure backend (.invalidTransition t) wallTime
  | .ok running =>
    running.settle (match inner with
      | .ok r => r
      | .error e => .ofFailure backend e wallTime)

end Vetting
