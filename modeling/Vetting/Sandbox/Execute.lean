import Vetting.Sandbox.Classification
import Vetting.Sandbox.Job

/-!
Runs of the three backends: the command that each starts, and what comes of it on a machine. The machine is
a parameter, so everything here is a function of what the machine does.
-/

namespace Vetting

/-- A command for one run. -/
structure Command where
  program : String
  arguments : List String
  /-- All variables of the environment; without them it is passed on. -/
  environment : Option (List (String × String))
  job : Job
  /-- The time after which the watchdog stops the run. -/
  limit : Duration
  /-- How many bytes of each stream are kept. -/
  readCap : Nat

/-- What a machine makes of a command. -/
abbrev Machine := Command → Launch

namespace Backend

/-- The time for starting up that is added to the timeout. -/
def grace : Backend → Duration
  | .restricted => .ofSecs 1
  | .subprocess => .ofMillis 500
  | .container => .ofSecs 3

/-- The time after which a run is stopped. -/
def wallLimit (b : Backend) (config : SandboxConfig) : Duration :=
  config.timeout.saturatingAdd b.grace

def programOf (b : Backend) (config : SandboxConfig) : String :=
  match b with
  | .container => config.container.runtime
  | _ => config.interpreter

/-- The arguments for an interpreter that runs a program text on its own. -/
def isolated (runner : String) : List String := ["-I", "-c", runner]

/-- The directory inside a container that can be written to. -/
def scratchDirectory : String := "/scratch"

/-- The user and the group that have no rights. -/
def nobody : String := "65534:65534"

/-- The arguments for a container runtime: no network unless it is allowed, a root that cannot be written
to, ceilings on memory, processors and processes, and no rights. -/
def containerArguments (config : SandboxConfig) (name runner : String) : List String :=
  let network := match config.network with
    | .disabled => "none"
    | .enabled => "bridge"
  let mode := match config.filesystem with
    | .readOnly => "ro"
    | .writable => "rw"
  let memory := toString config.maxMemoryBytes ++ "b"
  ["run", "--rm", "-i", "--name", name, "--network=" ++ network, "--read-only", "--tmpfs",
    scratchDirectory ++ ":" ++ mode ++ ",noexec,nosuid,nodev,size="
      ++ toString config.container.scratchSizeBytes,
    "-w", scratchDirectory, "--memory=" ++ memory, "--memory-swap=" ++ memory,
    "--cpus=" ++ config.cpuShare.plainText, "--pids-limit=" ++ toString config.container.pidsLimit,
    "--cap-drop=ALL", "--security-opt=no-new-privileges", "--user", nobody,
    "-e", "PYTHONDONTWRITEBYTECODE=1", config.container.image, config.container.interpreter]
    ++ isolated runner

/-- The whole environment of an interpreter that is started directly. -/
def directEnvironment : List (String × String) :=
  [("PYTHONDONTWRITEBYTECODE", "1"), ("PYTHONIOENCODING", "utf-8")]

/-- The name of a container; `id` tells it from all others. -/
def containerName (id : String) : String := "codegate-" ++ id

/-- The command for a request. `runner` is the text of the program that runs the job. -/
def command (b : Backend) (config : SandboxConfig) (denylist : Denylist) (runner id : String)
    (request : Request) : Command where
  program := b.programOf config
  arguments := match b with
    | .container => containerArguments config (containerName id) runner
    | _ => isolated runner
  environment := match b with
    | .container => none
    | _ => some directEnvironment
  job := Job.ofRequest request config denylist b.enforcement
  limit := b.wallLimit config
  readCap := config.reportReadCap

/-- What comes of a command, as far as the sandbox itself does not fail. -/
def watch (c : Command) : Launch → Except SandboxError Watched
  | .notFound => .error (.interpreterNotFound c.program)
  | .refused reason => .error (.notStarted reason)
  | .overdue => .ok .stopped
  | .ended child => .ok (.ofChild c.readCap child)

/-- One run on a machine. -/
def execute (b : Backend) (config : SandboxConfig) (denylist : Denylist) (runner id : String)
    (machine : Machine) (request : Request) : RunResult :=
  let c := b.command config denylist runner id request
  b.conclude ((watch c (machine c)).map fun w => classify b config w .zero) .zero

/-- A run of a source on its own with the standard denylist, if the configuration is valid. -/
def executeSafe (b : Backend) (config : SandboxConfig) (runner id : String) (machine : Machine)
    (source : String) : Except ConfigError RunResult := do
  config.validate
  return b.execute config .standard runner id machine ⟨source, none, []⟩

/-- The backend as a sandbox whose runs take no time. -/
def sandbox (b : Backend) (config : SandboxConfig) (denylist : Denylist) (runner id : String)
    (machine : Machine) : Sandbox :=
  fun _ request => ⟨b.execute config denylist runner id machine request, some .zero⟩

end Backend

end Vetting
