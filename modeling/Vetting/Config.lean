import Vetting.Denylist
import Vetting.Property.ParamType
import Vetting.Stage

/-!
The configuration of a validation: its sections with their defaults, what makes a section valid, and
the document form. Validity is checked section by section, and the first offence is the one reported.
-/

namespace Vetting

/-- The longest timeout, deadline or ceiling. -/
def Duration.oneDay : Duration := .ofSecs (24 * 60 * 60)

/-- Why a configuration is refused. -/
inductive ConfigError
  /-- A length of time is zero, negative, not finite or longer than a day. -/
  | invalidDuration (field value : String)
  | zeroLimit (field : String)
  | invalidCpuShare (share : Binary64)
  | invalidBounds (field low high : String)
  | overlappingPatterns (name : String)
  | invalidImage (image : String)
  | emptyProgram (field : String)
  | unsupportedParamType (name : String)
  | notReadable (cause : Json.DecodeError)

def ConfigError.message : ConfigError → String
  | .invalidDuration field value =>
    field ++ " must be a positive, finite duration of at most 24h (got " ++ value ++ ")"
  | .zeroLimit field => field ++ " must be greater than zero"
  | .invalidCpuShare share =>
    "cpu_share must be a positive, finite number (got " ++ share.plainText ++ ")"
  | .invalidBounds field low high => "invalid " ++ field ++ " bounds: " ++ low ++ " > " ++ high
  | .overlappingPatterns name => "pattern '" ++ name ++ "' appears in more than one denylist set"
  | .invalidImage image => "invalid container image reference '" ++ image ++ "'"
  | .emptyProgram field => field ++ " must name a program"
  | .unsupportedParamType name => "unsupported default parameter type '" ++ name ++ "'"
  | .notReadable cause => "invalid configuration document: " ++ cause.message

/-- Refuses unless a condition holds. -/
def demand (condition : Bool) (offence : ConfigError) : Except ConfigError Unit :=
  if condition then .ok () else .error offence

@[simp] theorem demand_eq_ok_iff {condition : Bool} {offence : ConfigError} :
    demand condition offence = .ok () ↔ condition = true := by
  cases condition <;> simp [demand]

/-- What comes after a demand is only come to if it is met. -/
@[simp] theorem demand_bind_eq_ok_iff {condition : Bool} {offence : ConfigError} {rest : Except ConfigError α} {a : α} :
    (demand condition offence >>= fun _ => rest) = .ok a ↔ condition = true ∧ rest = .ok a := by
  cases condition <;> simp [demand, bind, Except.bind]

/-- A length of time is positive and at most a day. -/
def Duration.isBounded (d : Duration) : Bool := 0 < d.nanos && d ≤ .oneDay

def checkDuration (field : String) (d : Duration) : Except ConfigError Unit :=
  demand d.isBounded (.invalidDuration field (d.toSeconds.fixedText 3 ++ "s"))

/-- The three sets of a denylist have no name in common. -/
def Denylist.validate (d : Denylist) : Except ConfigError Unit :=
  match d.overlap? with
  | some name => .error (.overlappingPatterns name)
  | none => .ok ()

/-! ### Sandbox -/

/-- Whether code in a sandbox reaches the network. -/
inductive NetworkPolicy
  | disabled
  | enabled
deriving DecidableEq

def NetworkPolicy.choices : List (String × NetworkPolicy) :=
  [("disabled", .disabled), ("enabled", .enabled)]

def NetworkPolicy.name : NetworkPolicy → String
  | .disabled => "disabled"
  | .enabled => "enabled"

/-- Whether code in a sandbox may write files. -/
inductive FilesystemPolicy
  | readOnly
  | writable
deriving DecidableEq

def FilesystemPolicy.choices : List (String × FilesystemPolicy) :=
  [("read_only", .readOnly), ("writable", .writable)]

def FilesystemPolicy.name : FilesystemPolicy → String
  | .readOnly => "read_only"
  | .writable => "writable"

/-- Settings of the container backend. -/
structure ContainerConfig where
  runtime : String := "docker"
  image : String := "python:3.12-slim"
  interpreter : String := "python3"
  scratchSizeBytes : Nat := 16 * 1024 * 1024
  pidsLimit : Nat := 32
deriving DecidableEq

namespace ContainerConfig

def toJson (c : ContainerConfig) : Json :=
  .obj [("runtime", .str c.runtime), ("image", .str c.image), ("interpreter", .str c.interpreter),
    ("scratch_size_bytes", .int c.scratchSizeBytes), ("pids_limit", .int c.pidsLimit)]

def shape : Json.Shape ContainerConfig where
  name := "struct ContainerConfig"
  start := {}
  fields := [
    .defaulted "runtime" .string fun v r => { r with runtime := v },
    .defaulted "image" .string fun v r => { r with image := v },
    .defaulted "interpreter" .string fun v r => { r with interpreter := v },
    .defaulted "scratch_size_bytes" .u64 fun v r => { r with scratchSizeBytes := v },
    .defaulted "pids_limit" .u32 fun v r => { r with pidsLimit := v }]

end ContainerConfig

/-- The limits of a sandbox run. -/
structure SandboxConfig where
  timeout : Duration := .ofSecs 5
  maxMemoryBytes : Nat := 256 * 1024 * 1024
  /-- One full core is `1.0`. -/
  cpuShare : Binary64 := .ofNat 1
  network : NetworkPolicy := .disabled
  filesystem : FilesystemPolicy := .readOnly
  /-- The limit of each captured stream. -/
  outputLimitBytes : Nat := 64 * 1024
  interpreter : String := "python3"
  container : ContainerConfig := {}
deriving DecidableEq

namespace SandboxConfig

def bytesPerMegabyte : Nat := 1024 * 1024

/-- The largest number of bytes. -/
def maxBytes : Nat := UInt64.size - 1

/-- A positive number of seconds as a length of time of at most a day. -/
def positiveDuration (field : String) (secs : Binary64) : Except ConfigError Duration := do
  demand (secs.isFinite && Binary64.zero.numLt secs) (.invalidDuration field secs.plainText)
  match Duration.ofSeconds secs with
  | .error _ => throw (.invalidDuration field secs.plainText)
  | .ok d =>
    checkDuration field d
    return d

def withTimeoutSecs (c : SandboxConfig) (secs : Binary64) : Except ConfigError SandboxConfig := do
  return { c with timeout := ← positiveDuration "sandbox_timeout_seconds" secs }

/-- The memory ceiling in megabytes, cut off at the largest number of bytes. -/
def withMemoryMegabytes (c : SandboxConfig) (mb : Nat) : Except ConfigError SandboxConfig := do
  demand (mb ≠ 0) (.zeroLimit "sandbox_max_memory_mb")
  return { c with maxMemoryBytes := min maxBytes (mb * bytesPerMegabyte) }

/-- The memory ceiling in whole megabytes. -/
def memoryMegabytes (c : SandboxConfig) : Nat := c.maxMemoryBytes / bytesPerMegabyte

/-- The characters of a container image reference. -/
def isImageChar (c : Char) : Bool :=
  c.isAlphanum || c = '.' || c = '_' || c = '/' || c = ':' || c = '@' || c = '-'

def isImageName (image : String) : Bool :=
  match image.toList with
  | [] => false
  | c :: rest => c ≠ '-' && (c :: rest).all isImageChar

def validate (c : SandboxConfig) : Except ConfigError Unit := do
  checkDuration "sandbox_timeout_seconds" c.timeout
  demand (c.maxMemoryBytes ≠ 0) (.zeroLimit "sandbox_max_memory_mb")
  demand (c.cpuShare.isFinite && Binary64.zero.numLt c.cpuShare) (.invalidCpuShare c.cpuShare)
  demand (c.outputLimitBytes ≠ 0) (.zeroLimit "output_limit_bytes")
  demand (!Text.isAllBlank c.interpreter) (.emptyProgram "interpreter")
  demand (!Text.isAllBlank c.container.runtime) (.emptyProgram "container.runtime")
  demand (!Text.isAllBlank c.container.interpreter) (.emptyProgram "container.interpreter")
  demand (isImageName c.container.image) (.invalidImage c.container.image)
  demand (c.container.pidsLimit ≠ 0) (.zeroLimit "container.pids_limit")
  demand (c.container.scratchSizeBytes ≠ 0) (.zeroLimit "container.scratch_size_bytes")

def toJson (c : SandboxConfig) : Json :=
  .obj [("timeout", c.timeout.secondsJson), ("max_memory_bytes", .int c.maxMemoryBytes),
    ("cpu_share", .float c.cpuShare), ("network", .str c.network.name),
    ("filesystem", .str c.filesystem.name), ("output_limit_bytes", .int c.outputLimitBytes),
    ("interpreter", .str c.interpreter), ("container", c.container.toJson)]

def shape : Json.Shape SandboxConfig where
  name := "struct SandboxConfig"
  start := {}
  fields := [
    .defaulted "timeout" Duration.secondsDecoder fun v r => { r with timeout := v },
    .defaulted "max_memory_bytes" .u64 fun v r => { r with maxMemoryBytes := v },
    .defaulted "cpu_share" .f64 fun v r => { r with cpuShare := v },
    .defaulted "network" (.variant NetworkPolicy.choices) fun v r => { r with network := v },
    .defaulted "filesystem" (.variant FilesystemPolicy.choices) fun v r => { r with filesystem := v },
    .defaulted "output_limit_bytes" .usize fun v r => { r with outputLimitBytes := v },
    .defaulted "interpreter" .string fun v r => { r with interpreter := v },
    .defaulted "container" ContainerConfig.shape.decoder fun v r => { r with container := v }]

end SandboxConfig

/-! ### Prevalidation and static analysis -/

/-- Limits on the size of the source. -/
structure PrevalidationConfig where
  /-- In characters. -/
  maxCodeLength : Nat := 100000
  maxLines : Nat := 5000
  /-- How serious it is to exceed a limit. -/
  limitSeverity : Severity := .error
deriving DecidableEq

namespace PrevalidationConfig

def toJson (c : PrevalidationConfig) : Json :=
  .obj [("max_code_length", .int c.maxCodeLength), ("max_lines", .int c.maxLines),
    ("limit_severity", c.limitSeverity.toJson)]

def shape : Json.Shape PrevalidationConfig where
  name := "struct PrevalidationConfig"
  start := {}
  fields := [
    .defaulted "max_code_length" .usize fun v r => { r with maxCodeLength := v },
    .defaulted "max_lines" .usize fun v r => { r with maxLines := v },
    .defaulted "limit_severity" Severity.decoder fun v r => { r with limitSeverity := v }]

end PrevalidationConfig

/-- The external analyzers that a configuration can name. -/
inductive KnownAnalyzer
  | ruff
  | bandit
deriving DecidableEq

namespace KnownAnalyzer

def all : List KnownAnalyzer := [.ruff, .bandit]

def name : KnownAnalyzer → String
  | .ruff => "ruff"
  | .bandit => "bandit"

def toJson (a : KnownAnalyzer) : Json := .str a.name

def decoder : Json.Decoder KnownAnalyzer := .variant (all.map fun a => (a.name, a))

end KnownAnalyzer

structure StaticAnalysisConfig where
  enabled : Bool := true
  analyzers : List KnownAnalyzer := []
  perAnalyzerTimeout : Duration := .ofSecs 10
  /-- The bound on the time in which all analyzers have to be done. -/
  overallTimeout : Duration := .ofSecs 30
deriving DecidableEq

namespace StaticAnalysisConfig

def toJson (c : StaticAnalysisConfig) : Json :=
  .obj [("enabled", .bool c.enabled), ("analyzers", .arr (c.analyzers.map KnownAnalyzer.toJson)),
    ("per_analyzer_timeout", c.perAnalyzerTimeout.secondsJson),
    ("overall_timeout", c.overallTimeout.secondsJson)]

def shape : Json.Shape StaticAnalysisConfig where
  name := "struct StaticAnalysisConfig"
  start := {}
  fields := [
    .defaulted "enabled" .bool fun v r => { r with enabled := v },
    .defaulted "analyzers" (.list KnownAnalyzer.decoder) fun v r => { r with analyzers := v },
    .defaulted "per_analyzer_timeout" Duration.secondsDecoder
      fun v r => { r with perAnalyzerTimeout := v },
    .defaulted "overall_timeout" Duration.secondsDecoder fun v r => { r with overallTimeout := v }]

end StaticAnalysisConfig

/-! ### Property tests -/

/-- Bounds of generated arguments and the way in which properties are tested. -/
structure PropertyTestConfig where
  /-- Generated argument lists. -/
  trials : Nat := 100
  intMin : Int := -1000
  intMax : Int := 1000
  floatMin : Binary64 := .ofInt (-1000000)
  floatMax : Binary64 := .ofInt 1000000
  maxStringLen : Nat := 16
  maxListLen : Nat := 8
  /-- The type of parameters without annotation. -/
  defaultParamType : String := "int"
  stopOnFirstViolation : Bool := true
  /-- How many counter-examples are kept when testing goes on after the first. -/
  maxCounterexamples : Nat := 5
  /-- The seed of the generator; a fresh one is drawn when there is none. -/
  seed : Option Nat := none
deriving DecidableEq

namespace PropertyTestConfig

def validate (c : PropertyTestConfig) : Except ConfigError Unit := do
  demand (c.trials ≠ 0) (.zeroLimit "property_test_trial_count")
  demand (c.intMin ≤ c.intMax) (.invalidBounds "int" (toString c.intMin) (toString c.intMax))
  demand (c.floatMin.isFinite && c.floatMax.isFinite && !c.floatMax.numLt c.floatMin)
    (.invalidBounds "float" c.floatMin.plainText c.floatMax.plainText)
  demand (c.maxCounterexamples ≠ 0) (.zeroLimit "max_counterexamples")
  demand (ParamType.ofText? c.defaultParamType).isSome (.unsupportedParamType c.defaultParamType)

def toJson (c : PropertyTestConfig) : Json :=
  .obj [("trials", .int c.trials), ("int_min", .int c.intMin), ("int_max", .int c.intMax),
    ("float_min", .float c.floatMin), ("float_max", .float c.floatMax),
    ("max_string_len", .int c.maxStringLen), ("max_list_len", .int c.maxListLen),
    ("default_param_type", .str c.defaultParamType),
    ("stop_on_first_violation", .bool c.stopOnFirstViolation),
    ("max_counterexamples", .int c.maxCounterexamples),
    ("seed", Parameter.orNull (fun n => .int n) c.seed)]

def shape : Json.Shape PropertyTestConfig where
  name := "struct PropertyTestConfig"
  start := {}
  fields := [
    .defaulted "trials" .usize fun v r => { r with trials := v },
    .defaulted "int_min" .i64 fun v r => { r with intMin := v },
    .defaulted "int_max" .i64 fun v r => { r with intMax := v },
    .defaulted "float_min" .f64 fun v r => { r with floatMin := v },
    .defaulted "float_max" .f64 fun v r => { r with floatMax := v },
    .defaulted "max_string_len" .usize fun v r => { r with maxStringLen := v },
    .defaulted "max_list_len" .usize fun v r => { r with maxListLen := v },
    .defaulted "default_param_type" .string fun v r => { r with defaultParamType := v },
    .defaulted "stop_on_first_violation" .bool fun v r => { r with stopOnFirstViolation := v },
    .defaulted "max_counterexamples" .usize fun v r => { r with maxCounterexamples := v },
    .defaulted "seed" (.optional .u64) fun v r => { r with seed := v }]

end PropertyTestConfig

/-! ### Thresholds and ceilings -/

/-- For each stage the severity at which a finding makes it fail. -/
structure Thresholds where
  prevalidation : Severity := .error
  staticAnalysis : Severity := .critical
  sandbox : Severity := .error
  propertyTesting : Severity := .critical
  resourceGuard : Severity := .error
deriving DecidableEq

namespace Thresholds

def ofStage (t : Thresholds) : StageId → Severity
  | .prevalidation => t.prevalidation
  | .staticAnalysis => t.staticAnalysis
  | .sandboxExecution => t.sandbox
  | .propertyTesting => t.propertyTesting
  | .resourceGuard => t.resourceGuard

def toJson (t : Thresholds) : Json :=
  .obj [("prevalidation", t.prevalidation.toJson), ("static_analysis", t.staticAnalysis.toJson),
    ("sandbox", t.sandbox.toJson), ("property_testing", t.propertyTesting.toJson),
    ("resource_guard", t.resourceGuard.toJson)]

def shape : Json.Shape Thresholds where
  name := "struct FatalityThresholds"
  start := {}
  fields := [
    .defaulted "prevalidation" Severity.decoder fun v r => { r with prevalidation := v },
    .defaulted "static_analysis" Severity.decoder fun v r => { r with staticAnalysis := v },
    .defaulted "sandbox" Severity.decoder fun v r => { r with sandbox := v },
    .defaulted "property_testing" Severity.decoder fun v r => { r with propertyTesting := v },
    .defaulted "resource_guard" Severity.decoder fun v r => { r with resourceGuard := v }]

end Thresholds

/-- Ceilings for a whole validation. -/
structure ResourceCeilings where
  maxTotalDuration : Duration := .ofSecs 120
  /-- For any single run. -/
  maxPeakMemoryBytes : Nat := 512 * 1024 * 1024
  /-- For all runs together. -/
  maxTotalCpuTime : Duration := .ofSecs 60
deriving DecidableEq

namespace ResourceCeilings

def toJson (c : ResourceCeilings) : Json :=
  .obj [("max_total_duration", c.maxTotalDuration.secondsJson),
    ("max_peak_memory_bytes", .int c.maxPeakMemoryBytes),
    ("max_total_cpu_time", c.maxTotalCpuTime.secondsJson)]

def shape : Json.Shape ResourceCeilings where
  name := "struct ResourceCeilings"
  start := {}
  fields := [
    .defaulted "max_total_duration" Duration.secondsDecoder
      fun v r => { r with maxTotalDuration := v },
    .defaulted "max_peak_memory_bytes" .u64 fun v r => { r with maxPeakMemoryBytes := v },
    .defaulted "max_total_cpu_time" Duration.secondsDecoder
      fun v r => { r with maxTotalCpuTime := v }]

end ResourceCeilings

/-! ### The whole configuration -/

structure ValidatorConfig where
  /-- Whether a stage that fails stops the pipeline. -/
  stopOnFailure : Bool := true
  prevalidation : PrevalidationConfig := {}
  /-- For prevalidation and, at run time, for the sandbox. -/
  patterns : Denylist := .standard
  staticAnalysis : StaticAnalysisConfig := {}
  enableSandbox : Bool := true
  sandboxBackend : Backend := .subprocess
  sandbox : SandboxConfig := {}
  enablePropertyTests : Bool := true
  propertyTests : PropertyTestConfig := {}
  thresholds : Thresholds := {}
  ceilings : ResourceCeilings := {}
  /-- The deadline for the whole validation. -/
  overallDeadline : Option Duration := none

namespace ValidatorConfig

def validate (c : ValidatorConfig) : Except ConfigError Unit := do
  demand (c.prevalidation.maxCodeLength ≠ 0) (.zeroLimit "max_code_length")
  demand (c.prevalidation.maxLines ≠ 0) (.zeroLimit "max_lines")
  c.patterns.validate
  checkDuration "per_analyzer_timeout" c.staticAnalysis.perAnalyzerTimeout
  checkDuration "overall_timeout" c.staticAnalysis.overallTimeout
  c.sandbox.validate
  c.propertyTests.validate
  checkDuration "max_total_duration" c.ceilings.maxTotalDuration
  checkDuration "max_total_cpu_time" c.ceilings.maxTotalCpuTime
  demand (c.ceilings.maxPeakMemoryBytes ≠ 0) (.zeroLimit "max_peak_memory_bytes")
  match c.overallDeadline with
  | some d => checkDuration "overall_deadline" d
  | none => pure ()

def toJson (c : ValidatorConfig) : Json :=
  .obj [("stop_on_failure", .bool c.stopOnFailure), ("prevalidation", c.prevalidation.toJson),
    ("patterns", c.patterns.toJson), ("static_analysis", c.staticAnalysis.toJson),
    ("enable_sandbox", .bool c.enableSandbox), ("sandbox_backend", c.sandboxBackend.toJson),
    ("sandbox", c.sandbox.toJson), ("enable_property_tests", .bool c.enablePropertyTests),
    ("property_tests", c.propertyTests.toJson), ("thresholds", c.thresholds.toJson),
    ("ceilings", c.ceilings.toJson),
    ("overall_deadline", Parameter.orNull Duration.secondsJson c.overallDeadline)]

def shape : Json.Shape ValidatorConfig where
  name := "struct ValidatorConfig"
  start := {}
  fields := [
    .defaulted "stop_on_failure" .bool fun v r => { r with stopOnFailure := v },
    .defaulted "prevalidation" PrevalidationConfig.shape.decoder
      fun v r => { r with prevalidation := v },
    .defaulted "patterns" Denylist.shape.decoder fun v r => { r with patterns := v },
    .defaulted "static_analysis" StaticAnalysisConfig.shape.decoder
      fun v r => { r with staticAnalysis := v },
    .defaulted "enable_sandbox" .bool fun v r => { r with enableSandbox := v },
    .defaulted "sandbox_backend" Backend.decoder fun v r => { r with sandboxBackend := v },
    .defaulted "sandbox" SandboxConfig.shape.decoder fun v r => { r with sandbox := v },
    .defaulted "enable_property_tests" .bool fun v r => { r with enablePropertyTests := v },
    .defaulted "property_tests" PropertyTestConfig.shape.decoder
      fun v r => { r with propertyTests := v },
    .defaulted "thresholds" Thresholds.shape.decoder fun v r => { r with thresholds := v },
    .defaulted "ceilings" ResourceCeilings.shape.decoder fun v r => { r with ceilings := v },
    .defaulted "overall_deadline" (.optional Duration.secondsDecoder)
      fun v r => { r with overallDeadline := v }]

/-- Reads and validates a configuration document. -/
def ofText (text : String) : Except ConfigError ValidatorConfig := do
  let config ← (shape.decoder.ofText text).mapError .notReadable
  config.validate
  return config

end ValidatorConfig

end Vetting
