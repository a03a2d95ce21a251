import Vetting.Property.Evaluation
import Vetting.Sandbox.Session
import Vetting.Text.LowerCase

/-!
Campaigns: a function is tried on generated arguments in the sandbox, and each property gets a result.
One batch of calls has every argument list twice in a row; a second batch feeds returned values back
in. Nothing else is asked of the sandbox.
-/

namespace Vetting

/-- What the batches of a campaign consumed. -/
structure BatchUsage where
  batches : Nat := 0
  /-- The largest peak that a batch reported. -/
  peakMemoryBytes : Option Nat := none
  cpuTime : Duration := .zero
deriving DecidableEq

/-- Takes up one more batch. -/
def BatchUsage.record (u : BatchUsage) (r : RunResult) : BatchUsage where
  batches := u.batches + 1
  peakMemoryBytes := ResourceUsage.maxPeak u.peakMemoryBytes r.peakMemoryBytes
  cpuTime := match r.cpuTime with
    | some t => u.cpuTime.saturatingAdd t
    | none => u.cpuTime

/-- Everything that a campaign produced. -/
structure Campaign where
  /-- The seed of the arguments. -/
  seed : Nat
  /-- How many argument lists were made up. -/
  trials : Nat
  /-- One result for each property, the built-in ones first. -/
  results : List PropertyResult
  usage : BatchUsage

/-- A campaign to be made: how, and with which properties besides the built-in ones. -/
structure Tester where
  config : PropertyTestConfig
  predicates : List Predicate

/-- The function that a campaign is about. -/
structure Target where
  source : String
  entryPoint : String
  signature : Signature

namespace Tester

/-- The names of all properties, in the order of their results. -/
def propertyNames (t : Tester) : List String := Property.battery ++ t.predicates.map (·.name)

/-! ### Parameters -/

/-- The name of a kind of parameter inside messages. -/
def kindText (kind : String) : String :=
  String.ofList ((Text.lower kind.toList).map fun c => if c = '_' then '-' else c)

/-- Whether an argument for a parameter can be left out. -/
def isOptional (p : Parameter) : Bool :=
  p.hasDefault || p.kind = "VAR_POSITIONAL" || p.kind = "VAR_KEYWORD"

/-- The type of one parameter, or why no arguments can be made up for it. -/
def resolveParameter (c : PropertyTestConfig) (p : Parameter) : Except String ParamType :=
  if !p.isPositional then
    .error ("required " ++ kindText p.kind ++ " parameter '" ++ p.name ++ "' is not supported")
  else
    let hint := p.annotation.getD c.defaultParamType
    match ParamType.ofText? hint with
    | some t => .ok t
    | none => .error ("unsupported annotation '" ++ hint ++ "' on parameter '" ++ p.name ++ "'")

/-- The types of the parameters that need an argument. -/
def resolveParameters (c : PropertyTestConfig) (s : Signature) : Except String (List ParamType) :=
  (s.params.filter fun p => !isOptional p).mapM (resolveParameter c)

/-! ### Batches -/

/-- The outcomes of a batch that ran to completion, or why it did not. -/
def completeCalls (r : RunResult) (expected : Nat) : Except String (List CallOutcome) :=
  if !r.isUsable then
    let cause := match r.exception with
      | some e => e.render
      | none => "no exception reported"
    .error ("sandbox batch ended with " ++ r.exit.label ++ ": " ++ cause)
  else if r.entryPointFound ≠ some true then .error "entry point not found in batch run"
  else if r.calls.length ≠ expected then
    .error ("sandbox returned " ++ toString r.calls.length ++ " of " ++ toString expected
      ++ " call outcomes")
  else .ok r.calls

def batchRequest (target : Target) (inputs : List (List Json)) : Request :=
  ⟨target.source, some target.entryPoint, inputs⟩

/-- Calls the function once for each argument list. -/
def runBatch (target : Target) (inputs : List (List Json)) (usage : BatchUsage) :
    Session (Except String (List CallOutcome) × BatchUsage) := do
  let r ← Session.ask (batchRequest target inputs)
  return (completeCalls r inputs.length, usage.record r)

/-- Each argument list with the outcomes of its two calls. -/
def pairCalls : List (List Json) → List CallOutcome → List Trial
  | input :: inputs, first :: second :: calls => ⟨input, first, second⟩ :: pairCalls inputs calls
  | _, _ => []

/-! ### Idempotence -/

/-- A trial whose first call returned, with the value. -/
structure Return where
  trial : Trial
  value : Json

def returns (trials : List Trial) : List Return :=
  trials.filterMap fun t => t.first.value?.map fun v => ⟨t, v⟩

/-- Why returned values cannot be fed back in, if they cannot: the declared result has another type, or,
when none is declared, a returned value has. -/
def typeMismatch? (param : ParamType) (declared : Option String) (returned : List Return) :
    Option String :=
  match declared with
  | some hint =>
    if ParamType.ofText? hint = some param then none
    else some ("return type '" ++ hint ++ "' differs from input type '" ++ param.render ++ "'")
  | none =>
    (returned.find? fun r => !param.accepts r.value).map fun r =>
      "output " ++ r.value.compact ++ " does not have input type '" ++ param.render ++ "'"

/-- Feeds the values that are of the parameter's type back in. -/
def reapply (t : Tester) (target : Target) (eligible : List Return) (usage : BatchUsage) :
    Session (PropertyResult × BatchUsage) := do
  let (calls, usage) ← runBatch target (eligible.map fun r => [r.value]) usage
  match calls with
  | .error detail => return (.error Property.idempotence 0 detail, usage)
  | .ok calls =>
    let cases := (eligible.zip calls).map fun (r, twice) =>
      Property.idempotenceCase r.trial.input r.value twice
    return (Property.evaluate t.config Property.idempotence cases, usage)

def checkIdempotence (t : Tester) (target : Target) (params : List ParamType) (trials : List Trial)
    (usage : BatchUsage) : Session (PropertyResult × BatchUsage) :=
  match params with
  | [param] =>
    let returned := returns trials
    match typeMismatch? param target.signature.returns returned with
    | some reason => return (.skipped Property.idempotence reason, usage)
    | none =>
      match returned.filter fun r => param.accepts r.value with
      | [] => return (.skipped Property.idempotence "no call returned a usable value", usage)
      | eligible => t.reapply target eligible usage
  | _ =>
    return (.skipped Property.idempotence
      ("needs exactly one parameter, found " ++ toString params.length), usage)

/-! ### Whole campaigns -/

/-- The same outcome for every property. -/
def all (t : Tester) (outcome : String → PropertyResult) : List PropertyResult :=
  t.propertyNames.map outcome

/-- The campaign on given arguments. -/
def campaignOn (t : Tester) (target : Target) (seed : Nat) (params : List ParamType)
    (inputs : List (List Json)) : Session Campaign := do
  let (calls, usage) ← runBatch target (inputs.flatMap fun x => [x, x]) {}
  match calls with
  | .error detail => return ⟨seed, inputs.length, t.all fun name => .error name 0 detail, usage⟩
  | .ok calls =>
    let trials := pairCalls inputs calls
    let (idempotence, usage) ← t.checkIdempotence target params trials usage
    let results := [Property.checkNoException t.config trials, Property.checkDeterminism t.config trials,
      idempotence] ++ t.predicates.map (Property.checkPredicate t.config trials)
    return ⟨seed, inputs.length, results, usage⟩

/-- The campaign. The seed is `fresh` unless the configuration names one. Where a range of the
configuration cannot be drawn from, there is none. -/
def campaign (t : Tester) (target : Target) (fresh : Nat) : Except RangeFault (Session Campaign) :=
  let seed := t.config.seed.getD fresh
  match resolveParameters t.config target.signature with
  | .error reason => .ok (.finish ⟨seed, 0, t.all fun name => .skipped name reason, {}⟩)
  | .ok params => do
    let (inputs, _) ← Generator.generate t.config params t.config.trials
      (.ofSeed (UInt64.ofNat seed))
    return t.campaignOn target seed params inputs

end Tester

namespace Campaign

/-- The result of a property; of two of one name the first. -/
def result? (c : Campaign) (property : String) : Option PropertyResult :=
  c.results.find? (·.property = property)

/-- What is reported of a result; a property that holds needs no words. -/
def resultFinding? (r : PropertyResult) : Option Finding :=
  match r.outcome with
  | .holds => none
  | .violated =>
    let input := match r.counterExample with
      | some xs => (Json.arr xs).compact
      | none => ""
    some (.coded .error "property-violated" ("property '" ++ r.property ++ "' violated by input "
      ++ input ++ ": " ++ r.detail.getD "no detail"))
  | .error =>
    some (.coded .warning "property-error" ("property '" ++ r.property
      ++ "' could not be evaluated: " ++ r.detail.getD "no detail"))
  | .skipped =>
    some (.coded .info "property-skipped" ("property '" ++ r.property ++ "' skipped: "
      ++ r.detail.getD "not applicable"))

def summary (c : Campaign) : Finding :=
  .coded .info "property-summary" (toString c.results.length ++ " properties over "
    ++ toString c.trials ++ " trials (seed " ++ toString c.seed ++ ")")

def findings (c : Campaign) : List Finding := c.summary :: c.results.filterMap resultFinding?

/-- The result of the stage. -/
def stageResult (c : Campaign) (threshold : Severity) : StageResult :=
  .ofFindings .propertyTesting c.findings threshold .zero

end Campaign

end Vetting
