import Vetting.Text.Utf8

/-!
Child processes, as they are seen from outside: whether they could be started, how they ended, and the
bytes they wrote.
-/

namespace Vetting

/-- How a process ended. -/
inductive ExitStatus
  | code (n : Nat)
  | signal (n : Nat)
deriving DecidableEq

namespace ExitStatus

/-- The names of the signals, from the first on. -/
def signalNames : List String := [
  "SIGHUP", "SIGINT", "SIGQUIT", "SIGILL", "SIGTRAP", "SIGABRT", "SIGBUS", "SIGFPE", "SIGKILL",
  "SIGUSR1", "SIGSEGV", "SIGUSR2", "SIGPIPE", "SIGALRM", "SIGTERM", "SIGSTKFLT", "SIGCHLD",
  "SIGCONT", "SIGSTOP", "SIGTSTP", "SIGTTIN", "SIGTTOU", "SIGURG", "SIGXCPU", "SIGXFSZ",
  "SIGVTALRM", "SIGPROF", "SIGWINCH", "SIGIO", "SIGPWR", "SIGSYS"]

/-- The signal that nothing can catch. -/
def kill : Nat := 9

/-- The signal for too much processor time. -/
def cpuTimeExceeded : Nat := 24

def isSuccess (s : ExitStatus) : Bool := s = .code 0

/-- The status in words. -/
def render : ExitStatus → String
  | .code n => "exit status: " ++ toString n
  | .signal n =>
    "signal: " ++ toString n ++ (match (if n = 0 then none else signalNames[n - 1]?) with
      | some name => " (" ++ name ++ ")"
      | none => "")

end ExitStatus

/-- A process that has ended, with what it wrote. -/
structure Child where
  status : ExitStatus
  stdout : List UInt8
  stderr : List UInt8

/-- What comes of starting a program. -/
inductive Launch
  /-- There is no such program. -/
  | notFound
  /-- The program cannot be started for another reason. -/
  | refused (reason : String)
  /-- The process was still running when its time was over. -/
  | overdue
  | ended (child : Child)

end Vetting
