import Vetting.Finding

/-!
What testing one property of a function came to.
-/

namespace Vetting

inductive PropertyOutcome
  /-- No trial falsified the property. -/
  | holds
  /-- At least one trial did. -/
  | violated
  /-- The property could not be evaluated. -/
  | error
  /-- The property does not apply. -/
  | skipped
deriving DecidableEq

namespace PropertyOutcome

def all : List PropertyOutcome := [.holds, .violated, .error, .skipped]

def label : PropertyOutcome → String
  | .holds => "HOLDS"
  | .violated => "VIOLATED"
  | .error => "ERROR"
  | .skipped => "SKIPPED"

def toJson (o : PropertyOutcome) : Json := .str o.label

def decoder : Json.Decoder PropertyOutcome := .variant (all.map fun o => (o.label, o))

end PropertyOutcome

/-- An argument list that falsified a property, and what was seen. -/
structure CounterExample where
  input : List Json
  observed : String
deriving BEq

namespace CounterExample

def toJson (c : CounterExample) : Json :=
  .obj [("input", .arr c.input), ("observed", .str c.observed)]

def shape : Json.Shape CounterExample where
  name := "struct CounterExample"
  start := ⟨[], ""⟩
  fields := [
    .required "input" (.list .any) fun v r => { r with input := v },
    .required "observed" .string fun v r => { r with observed := v }]

end CounterExample

/-- The result of one property. -/
structure PropertyResult where
  property : String
  outcome : PropertyOutcome
  /-- The smallest falsifying argument list found. -/
  counterExample : Option (List Json)
  /-- Different falsifying argument lists, smallest first. -/
  counterExamples : List CounterExample
  trials : Nat
  detail : Option String
deriving BEq

namespace PropertyResult

def holds (property : String) (trials : Nat) : PropertyResult :=
  ⟨property, .holds, none, [], trials, none⟩

/-- A falsified property; the head of the list stands for all. -/
def violated (property : String) (trials : Nat) (found : List CounterExample) : PropertyResult :=
  ⟨property, .violated, found.head?.map (·.input), found, trials, found.head?.map (·.observed)⟩

def error (property : String) (trials : Nat) (detail : String) : PropertyResult :=
  ⟨property, .error, none, [], trials, some detail⟩

def skipped (property : String) (reason : String) : PropertyResult :=
  ⟨property, .skipped, none, [], 0, some reason⟩

def toJson (r : PropertyResult) : Json :=
  .obj ([("property", .str r.property), ("outcome", r.outcome.toJson),
      ("counter_example", match r.counterExample with | some xs => .arr xs | none => .null)]
    ++ (if r.counterExamples.isEmpty then []
        else [("counter_examples", .arr (r.counterExamples.map CounterExample.toJson))])
    ++ [("trials", .int r.trials)]
    ++ Finding.fieldIfSome "detail" (r.detail.map .str))

def shape : Json.Shape PropertyResult where
  name := "struct PropertyCheckResult"
  start := .holds "" 0
  fields := [
    .required "property" .string fun v r => { r with property := v },
    .required "outcome" PropertyOutcome.decoder fun v r => { r with outcome := v },
    .nullable "counter_example" (.list .any) fun v r => { r with counterExample := v },
    .defaulted "counter_examples" (.list CounterExample.shape.decoder)
      fun v r => { r with counterExamples := v },
    .required "trials" .usize fun v r => { r with trials := v },
    .defaulted "detail" (.optional .string) fun v r => { r with detail := v }]

end PropertyResult

end Vetting
