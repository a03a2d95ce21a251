import Vetting.Duration
import Vetting.Finding

/-!
What one run of the code in a sandbox produced: how it ended, what it printed, and what each call of
the entry point returned or raised.
-/

namespace Vetting

/-- The kind of sandbox that runs the code. -/
inductive Backend
  | restricted
  | subprocess
  | container
deriving DecidableEq

namespace Backend

def all : List Backend := [.restricted, .subprocess, .container]

def name : Backend → String
  | .restricted => "restricted"
  | .subprocess => "subprocess"
  | .container => "container"

def toJson (b : Backend) : Json := .str b.name

def decoder : Json.Decoder Backend := .variant (all.map fun b => (b.name, b))

end Backend

/-- The states of a sandbox run. -/
inductive RunState
  | ready
  | running
  | completed
  | timedOut
  | resourceExceeded
  | crashed
deriving DecidableEq

namespace RunState

def all : List RunState := [.ready, .running, .completed, .timedOut, .resourceExceeded, .crashed]

def label : RunState → String
  | .ready => "READY"
  | .running => "RUNNING"
  | .completed => "COMPLETED"
  | .timedOut => "TIMED_OUT"
  | .resourceExceeded => "RESOURCE_EXCEEDED"
  | .crashed => "CRASHED"

/-- The name inside messages. -/
def title : RunState → String
  | .ready => "Ready"
  | .running => "Running"
  | .completed => "Completed"
  | .timedOut => "TimedOut"
  | .resourceExceeded => "ResourceExceeded"
  | .crashed => "Crashed"

/-- Whether nothing can follow. -/
def isTerminal : RunState → Bool
  | .ready => false
  | .running => false
  | _ => true

def toJson (s : RunState) : Json := .str s.label

def decoder : Json.Decoder RunState := .variant (all.map fun s => (s.label, s))

end RunState

/-- How a sandbox run ended. -/
inductive Exit
  | ok
  | timeout
  | oom
  | runtimeError
  | forbiddenOperation
deriving DecidableEq

namespace Exit

def all : List Exit := [.ok, .timeout, .oom, .runtimeError, .forbiddenOperation]

def label : Exit → String
  | .ok => "OK"
  | .timeout => "TIMEOUT"
  | .oom => "OOM"
  | .runtimeError => "RUNTIME_ERROR"
  | .forbiddenOperation => "FORBIDDEN_OPERATION"

/-- The state that a run is left in. -/
def terminalState : Exit → RunState
  | .ok => .completed
  | .timeout => .timedOut
  | .oom => .resourceExceeded
  | .runtimeError => .crashed
  | .forbiddenOperation => .crashed

def toJson (e : Exit) : Json := .str e.label

def decoder : Json.Decoder Exit := .variant (all.map fun e => (e.label, e))

end Exit

/-- An exception that the code raised, or a failure told in its form. -/
structure ExceptionSummary where
  errorType : String
  message : String
  traceback : Option String := none
deriving DecidableEq

namespace ExceptionSummary

/-- The type, and the message if it says anything. -/
def render (e : ExceptionSummary) : String :=
  if e.message.isEmpty then e.errorType else e.errorType ++ ": " ++ e.message

def toJson (e : ExceptionSummary) : Json :=
  .obj ([("error_type", .str e.errorType), ("message", .str e.message)]
    ++ Finding.fieldIfSome "traceback" (e.traceback.map .str))

def shape : Json.Shape ExceptionSummary where
  name := "struct ExceptionSummary"
  start := ⟨"", "", none⟩
  fields := [
    .required "error_type" .string fun v r => { r with errorType := v },
    .required "message" .string fun v r => { r with message := v },
    .defaulted "traceback" (.optional .string) fun v r => { r with traceback := v }]

end ExceptionSummary

/-- What one call of the entry point came to. -/
inductive CallOutcome
  | returned (value : Json)
  | raised (errorType message : String)
deriving BEq

namespace CallOutcome

def value? : CallOutcome → Option Json
  | .returned v => some v
  | .raised _ _ => none

def toJson : CallOutcome → Json
  | .returned v => .obj [("outcome", .str "returned"), ("value", v)]
  | .raised t m => .obj [("outcome", .str "raised"), ("error_type", .str t), ("message", .str m)]

/-- The two forms of an outcome, before their fields are read. -/
inductive Tag
  | returned
  | raised

def tagChoices : List (String × Tag) := [("returned", .returned), ("raised", .raised)]

/-- The tag is a text; no other form of a choice is taken. -/
def tagDecoder : Json.Decoder Tag := fun levels doc =>
  match doc with
  | .str s => Json.Decoder.variant tagChoices levels (.str s)
  | other => .error (Json.mismatch "variant identifier" other)

def fieldsShape : Tag → Json.Shape CallOutcome
  | .returned =>
    { name := "struct variant CallOutcome::Returned"
      start := .returned .null
      fields := [.required "value" .any fun v _ => .returned v] }
  | .raised =>
    { name := "struct variant CallOutcome::Raised"
      start := .raised "" ""
      fields := [
        .required "error_type" .string fun v r =>
          match r with
          | .raised _ m => .raised v m
          | other => other,
        .required "message" .string fun v r =>
          match r with
          | .raised t _ => .raised t v
          | other => other] }

/-- Splits the tag from the other fields of an object, which are read as plain values. -/
def splitTag (levels : Nat) :
    List (Except Json.TextError String × Json.Doc) → Option Tag → List (String × Json) →
      Except Json.DecodeError (Option Tag × List (String × Json))
  | [], tag, seen => .ok (tag, seen.reverse)
  | (key, doc) :: rest, tag, seen => do
    let name ← Json.textOf key
    if name = "outcome" then
      if tag.isSome then throw (.duplicateField "outcome")
      let t ← tagDecoder levels doc
      splitTag levels rest (some t) seen
    else
      let v ← Json.readAny levels doc
      splitTag levels rest tag ((name, v) :: seen)

/-- The fields of an outcome given as an array behind its tag. -/
def ofItems (tag : Tag) (levels : Nat) (items : List Json) : Except Json.DecodeError CallOutcome := do
  let shape := fieldsShape tag
  let (outcome, rest) ← shape.readItems levels none 0 shape.fields (Json.toDocs items) shape.start
  if rest.isEmpty then return outcome
  else throw (.invalidLength items.length (Json.countText shape.fields.length ++ " in sequence"))

/-- An outcome carries its tag among its own fields. -/
def decoder : Json.Decoder CallOutcome := fun levels doc =>
  match doc with
  | .map fields stop => do
    let inner ← Json.enterLevel levels
    let (tag, others) ← splitTag inner fields none []
    Json.stopReading stop
    match tag with
    | none => throw (.missingField "outcome")
    | some t => (fieldsShape t).decoder levels (.map (Json.toDocFields others) none)
  | .seq items stop => do
    let inner ← Json.enterLevel levels
    match items with
    | [] =>
      Json.stopReading stop
      throw (.missingField "outcome")
    | first :: rest =>
      let tag ← tagDecoder inner first
      let values ← Json.readAnyItems inner rest
      Json.stopReading stop
      ofItems tag inner values
  | other => .error (Json.mismatch "internally tagged enum CallOutcome" other)

end CallOutcome

/-- A declared parameter of the entry point. -/
structure Parameter where
  name : String
  annotation : Option String
  kind : String
  hasDefault : Bool
deriving DecidableEq

namespace Parameter

/-- Whether an argument can be passed by position. -/
def isPositional (p : Parameter) : Bool :=
  p.kind == "POSITIONAL_ONLY" || p.kind == "POSITIONAL_OR_KEYWORD"

/-- `null` in place of a value that is not there. -/
def orNull (f : α → Json) : Option α → Json
  | some a => f a
  | none => .null

def toJson (p : Parameter) : Json :=
  .obj [("name", .str p.name), ("annotation", orNull .str p.annotation), ("kind", .str p.kind),
    ("has_default", .bool p.hasDefault)]

def shape : Json.Shape Parameter where
  name := "struct ParamSpec"
  start := ⟨"", none, "", false⟩
  fields := [
    .required "name" .string fun v r => { r with name := v },
    .defaulted "annotation" (.optional .string) fun v r => { r with annotation := v },
    .required "kind" .string fun v r => { r with kind := v },
    .defaulted "has_default" .bool fun v r => { r with hasDefault := v }]

end Parameter

/-- The declared signature of the entry point. -/
structure Signature where
  params : List Parameter
  returns : Option String
deriving DecidableEq

namespace Signature

def toJson (s : Signature) : Json :=
  .obj [("params", .arr (s.params.map Parameter.toJson)), ("returns", Parameter.orNull .str s.returns)]

def shape : Json.Shape Signature where
  name := "struct CallableSignature"
  start := ⟨[], none⟩
  fields := [
    .required "params" (.list Parameter.shape.decoder) fun v r => { r with params := v },
    .defaulted "returns" (.optional .string) fun v r => { r with returns := v }]

end Signature

/-- A length of time in a document, in milliseconds. -/
def Duration.millisJson (d : Duration) : Json := .float d.toMillis

/-- A length of time in a document, in seconds. -/
def Duration.secondsJson (d : Duration) : Json := .float d.toSeconds

def Duration.millisDecoder : Json.Decoder Duration :=
  Json.Decoder.f64.check fun x => (Duration.ofMilliseconds x).mapError RangeError.message

def Duration.secondsDecoder : Json.Decoder Duration :=
  Json.Decoder.f64.check fun x => (Duration.ofSeconds x).mapError RangeError.message

/-- Everything that one run in a sandbox produced. -/
structure RunResult where
  backend : Backend
  exit : Exit
  state : RunState
  stdout : String
  stderr : String
  /-- Whether the captured output was cut at its limit. -/
  outputTruncated : Bool
  /-- What the first call of the entry point returned. -/
  returnValue : Option Json
  exception : Option ExceptionSummary
  signature : Option Signature
  /-- Whether the entry point exists, if one was asked for. -/
  entryPointFound : Option Bool
  /-- One outcome for each argument list, in order. -/
  calls : List CallOutcome
  wallTime : Duration
  peakMemoryBytes : Option Nat
  cpuTime : Option Duration
deriving BEq

namespace RunResult

/-- A run that never got as far as a report. -/
def aborted (backend : Backend) (exit : Exit) (exception : ExceptionSummary) (wallTime : Duration) :
    RunResult where
  backend := backend
  exit := exit
  state := exit.terminalState
  stdout := ""
  stderr := ""
  outputTruncated := false
  returnValue := none
  exception := some exception
  signature := none
  entryPointFound := none
  calls := []
  wallTime := wallTime
  peakMemoryBytes := none
  cpuTime := none

/-- Only a run that completed without any error yields values to go on with. -/
def isUsable (r : RunResult) : Bool := r.state = .completed && r.exit = .ok

def toJson (r : RunResult) : Json :=
  .obj [
    ("backend", r.backend.toJson),
    ("classification", r.exit.toJson),
    ("state", r.state.toJson),
    ("stdout", .str r.stdout),
    ("stderr", .str r.stderr),
    ("output_truncated", .bool r.outputTruncated),
    ("return_value", Parameter.orNull id r.returnValue),
    ("exception", Parameter.orNull ExceptionSummary.toJson r.exception),
    ("signature", Parameter.orNull Signature.toJson r.signature),
    ("entry_point_found", Parameter.orNull .bool r.entryPointFound),
    ("calls", .arr (r.calls.map CallOutcome.toJson)),
    ("wall_time", r.wallTime.millisJson),
    ("peak_memory_bytes", Parameter.orNull (fun n => .int n) r.peakMemoryBytes),
    ("cpu_time", Parameter.orNull Duration.millisJson r.cpuTime)]

def shape : Json.Shape RunResult where
  name := "struct ExecutionResult"
  start := { RunResult.aborted .subprocess .ok ⟨"", "", none⟩ .zero with exception := none }
  fields := [
    .required "backend" Backend.decoder fun v r => { r with backend := v },
    .required "classification" Exit.decoder fun v r => { r with exit := v },
    .required "state" RunState.decoder fun v r => { r with state := v },
    .required "stdout" .string fun v r => { r with stdout := v },
    .required "stderr" .string fun v r => { r with stderr := v },
    .required "output_truncated" .bool fun v r => { r with outputTruncated := v },
    .nullable "return_value" .any fun v r => { r with returnValue := v },
    .nullable "exception" ExceptionSummary.shape.decoder fun v r => { r with exception := v },
    .nullable "signature" Signature.shape.decoder fun v r => { r with signature := v },
    .nullable "entry_point_found" .bool fun v r => { r with entryPointFound := v },
    .required "calls" (.list CallOutcome.decoder) fun v r => { r with calls := v },
    .required "wall_time" Duration.millisDecoder fun v r => { r with wallTime := v },
    .nullable "peak_memory_bytes" .u64 fun v r => { r with peakMemoryBytes := v },
    .defaulted "cpu_time" (.optional Duration.millisDecoder) fun v r => { r with cpuTime := v }]

end RunResult

end Vetting
