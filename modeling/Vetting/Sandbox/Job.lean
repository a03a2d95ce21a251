import Vetting.Config
import Vetting.Sandbox.Session

/-!
Jobs: what the program inside a sandbox is told to run, with the limits it has to keep and the names it
has to refuse.
-/

namespace Vetting

/-- How the limits of a job are kept. -/
inductive Enforcement
  /-- By limits of the operating system, set before the code runs. -/
  | kernel
  /-- By checks that run along with the code. -/
  | cooperative
deriving DecidableEq

/-- Each backend keeps the limits in one way. -/
def Backend.enforcement : Backend → Enforcement
  | .restricted => .cooperative
  | .subprocess => .kernel
  | .container => .kernel

structure Job where
  request : Request
  timeout : Duration
  memoryLimitBytes : Nat
  /-- A backstop behind the limit on the time that passes. -/
  cpuSeconds : Nat
  enforcement : Enforcement
  isReadOnly : Bool
  outputCapBytes : Nat
  forbiddenModules : NameSet
  forbiddenBuiltins : List String

namespace Job

/-- The modules that are refused at run time: without a network, those that would use it as well. -/
def refusedModules (denylist : Denylist) (network : NetworkPolicy) : NameSet :=
  match network with
  | .disabled => denylist.modules.insertMany Denylist.networkModules
  | .enabled => denylist.modules

/-- Whole seconds of processor time for a timeout: those of the timeout and one more, as far as 64 bits
go. -/
def cpuLimit (timeout : Duration) : Nat := min (UInt64.size - 1) (timeout.secs + 1)

def ofRequest (request : Request) (config : SandboxConfig) (denylist : Denylist)
    (enforcement : Enforcement) : Job where
  request := request
  timeout := config.timeout
  memoryLimitBytes := config.maxMemoryBytes
  cpuSeconds := cpuLimit config.timeout
  enforcement := enforcement
  isReadOnly := config.filesystem = .readOnly
  outputCapBytes := config.outputLimitBytes
  forbiddenModules := refusedModules denylist config.network
  forbiddenBuiltins := denylist.builtinCallables

/-- The document that the job is handed over as. -/
def toJson (j : Job) : Json :=
  .obj [
    ("source", .str j.request.source),
    ("entry_point", Parameter.orNull .str j.request.entryPoint),
    ("inputs", .arr (j.request.inputs.map .arr)),
    ("timeout_seconds", j.timeout.secondsJson),
    ("memory_limit_bytes", .int j.memoryLimitBytes),
    ("cpu_seconds", .int j.cpuSeconds),
    ("apply_rlimits", .bool (j.enforcement = .kernel)),
    ("cooperative", .bool (j.enforcement = .cooperative)),
    ("read_only_fs", .bool j.isReadOnly),
    ("output_cap_bytes", .int j.outputCapBytes),
    ("forbidden_modules", Denylist.namesJson j.forbiddenModules),
    ("forbidden_builtins", .arr (j.forbiddenBuiltins.map .str))]

end Job

end Vetting
