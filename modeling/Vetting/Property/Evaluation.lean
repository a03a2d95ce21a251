import Vetting.Property.Generator
import Vetting.Property.Result
import Vetting.Execution

/-!
From calls to verdicts: the cases of a property are the argument lists it was tried on, each with what
speaks against the property, if anything does. `evaluate` makes one result of them.
-/

namespace Vetting

/-- An argument list, and what was seen that falsifies the property. -/
structure Case where
  input : List Json
  failure : Option String

/-- One argument list and what two calls with it, one right after the other, came to. -/
structure Trial where
  input : List Json
  first : CallOutcome
  second : CallOutcome

/-- What a predicate says of an argument list and the value returned for it. -/
inductive Property.Answer
  | accepts
  | rejects
  /-- The predicate itself failed. -/
  | crashes
deriving DecidableEq

/-- A property that its author states by a predicate on the calls that return. -/
structure Predicate where
  name : String
  judge : List Json → Json → Property.Answer

namespace CallOutcome

/-- An outcome in words. -/
def render : CallOutcome → String
  | .returned v => "returned " ++ v.compact
  | .raised type message => "raised " ++ type ++ ": " ++ message

/-- Whether two outcomes count as the same: equal values, or exceptions of one type. -/
def agrees : CallOutcome → CallOutcome → Bool
  | .returned a, .returned b => a == b
  | .raised s _, .raised t _ => s == t
  | _, _ => false

end CallOutcome

namespace Property

/-! ### Counter-examples -/

/-- How many cases were looked at, and the counter-examples among them. Later cases with an input that is
already among the found ones do not count, and `stopAtFirst` ends the search at the first found.
`found` holds the counter-examples in reverse. -/
def gather (stopAtFirst : Bool) (trials : Nat) (found : List CounterExample) :
    List Case → Nat × List CounterExample
  | [] => (trials, found.reverse)
  | c :: rest =>
    match c.failure with
    | none => gather stopAtFirst (trials + 1) found rest
    | some observed =>
      if found.any fun e => Json.equalItems e.input c.input then
        gather stopAtFirst (trials + 1) found rest
      else if stopAtFirst then (trials + 1, (⟨c.input, observed⟩ :: found).reverse)
      else gather stopAtFirst (trials + 1) (⟨c.input, observed⟩ :: found) rest

/-- The smallest of some counter-examples, smallest first. -/
def smallest (limit : Nat) (found : List CounterExample) : List CounterExample :=
  (found.mergeSort fun a b => (Generator.compareInputs a.input b.input).isLE).take limit

/-- The result that the cases of a property give. -/
def evaluate (config : PropertyTestConfig) (name : String) (cases : List Case) : PropertyResult :=
  match gather config.stopOnFirstViolation 0 [] cases with
  | (trials, []) => .holds name trials
  | (trials, found) => .violated name trials (smallest config.maxCounterexamples found)

/-! ### The properties -/

/-- The property that no call raises. -/
def noException : String := "no_exception"

/-- The property that two calls with the same arguments agree. -/
def determinism : String := "determinism"

/-- The property that calling the function on its own result changes nothing. -/
def idempotence : String := "idempotence"

/-- The built-in properties. -/
def battery : List String := [noException, determinism, idempotence]

def exceptionCase (t : Trial) : Case :=
  ⟨t.input, match t.first, t.second with
    | .raised type message, _ => some (CallOutcome.raised type message).render
    | _, .raised type message => some (CallOutcome.raised type message).render
    | _, _ => none⟩

def determinismCase (t : Trial) : Case :=
  ⟨t.input, if t.first.agrees t.second then none
    else some ("first call " ++ t.first.render ++ ", second call " ++ t.second.render)⟩

/-- A call on the value `once` that the function returned, against that value. -/
def idempotenceCase (input : List Json) (once : Json) (twice : CallOutcome) : Case :=
  ⟨input, match twice with
    | .returned v =>
      if v == once then none
      else some ("f(x) = " ++ once.compact ++ " but f(f(x)) = " ++ v.compact)
    | raised => some ("f(x) = " ++ once.compact ++ " but f(f(x)) " ++ raised.render)⟩

/-- The cases of a predicate: the trials whose first call returned. When the predicate fails, it is
told how many cases came before. `seen` holds the cases in reverse. -/
def predicateCases (p : Predicate) (seen : List Case) : List Trial → Except Nat (List Case)
  | [] => .ok seen.reverse
  | t :: rest =>
    match t.first.value? with
    | none => predicateCases p seen rest
    | some v =>
      match p.judge t.input v with
      | .accepts => predicateCases p (⟨t.input, none⟩ :: seen) rest
      | .rejects =>
        predicateCases p (⟨t.input, some ("predicate rejected output " ++ v.compact)⟩ :: seen) rest
      | .crashes => .error seen.length

def checkNoException (config : PropertyTestConfig) (trials : List Trial) : PropertyResult :=
  evaluate config noException (trials.map exceptionCase)

def checkDeterminism (config : PropertyTestConfig) (trials : List Trial) : PropertyResult :=
  evaluate config determinism (trials.map determinismCase)

def checkPredicate (config : PropertyTestConfig) (trials : List Trial) (p : Predicate) :
    PropertyResult :=
  match predicateCases p [] trials with
  | .error before => .error p.name before "predicate panicked"
  | .ok [] => .skipped p.name "no call returned a value"
  | .ok cases => evaluate config p.name cases

end Property

end Vetting
