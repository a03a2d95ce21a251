import Vetting.Config
import Vetting.Random.Uniform

/-!
Argument lists made up for parameter types: boundary values first, then random draws, and the order
that puts the smallest of several argument lists first.
-/

namespace Vetting

/-- The characters of random texts; some of them take several bytes. -/
def textAlphabet : List Char := [
  'a', 'b', 'c', 'x', 'y', 'z', 'A', 'Z', '0', '9', ' ', '_', '-', '.', 'é', 'ß', 'π', 'ж', '中', '✓']

namespace Generator

/-- A double as a value; one that is not finite has no value but `null`. -/
def floatValue (x : Binary64) : Json := if x.isFinite then .float x else .null

/-- Keeps the first of values that are equal. -/
def unique (seen : List Json) : List Json → List Json
  | [] => seen.reverse
  | v :: rest => if seen.any (Json.equal · v) then unique seen rest else unique (v :: seen) rest

/-- Boundary values before equal ones are dropped. -/
def candidates (c : PropertyTestConfig) : ParamType → List Json
  | .bool => [.bool false, .bool true]
  | .int =>
    ([0, 1, -1, c.intMin, c.intMax].filter fun n => decide (c.intMin ≤ n) && decide (n ≤ c.intMax)).map
      .int
  | .float =>
    ([.zero, .ofInt 1, .ofInt (-1), c.floatMin, c.floatMax].filter
      fun x => c.floatMin.numLe x && x.numLe c.floatMax).map floatValue
  | .str =>
    [.str ""] ++ (if 1 ≤ c.maxStringLen then [.str "a", .str "é"] else [])
      ++ (if 1 < c.maxStringLen then [.str ("".pushn 'z' c.maxStringLen)] else [])
  | .list t =>
    [.arr []] ++
      (if 1 ≤ c.maxListLen then ((unique [] (candidates c t)).take 1).map fun v => .arr [v] else [])

/-- The boundary values of a type, all within the configured bounds. -/
def edgeValues (c : PropertyTestConfig) (t : ParamType) : List Json := unique [] (candidates c t)

/-- The results of `count` draws in turn. -/
def repeatDraw (d : Draw α) : Nat → Draw (List α)
  | 0 => return []
  | n + 1 => do
    let a ← d
    return a :: (← repeatDraw d n)

def char : Draw Char := do
  let i ← Draw.nat (textAlphabet.length - 1)
  return textAlphabet[i]?.getD 'a'

/-- A uniform draw within the configured bounds. -/
def randomValue (c : PropertyTestConfig) : ParamType → Draw Json
  | .bool => return .bool (← Draw.bool)
  | .int => return .int (← Draw.int c.intMin c.intMax)
  | .float => return floatValue (← Draw.float c.floatMin c.floatMax)
  | .str => do
    let length ← Draw.nat c.maxStringLen
    return .str (String.ofList (← repeatDraw char length))
  | .list t => do
    let length ← Draw.nat c.maxListLen
    return .arr (← repeatDraw (randomValue c t) length)

/-- One argument list: for each parameter its boundary value for this trial, or else a random draw. -/
def arguments (c : PropertyTestConfig) (trial : Nat) : List (ParamType × List Json) → Draw (List Json)
  | [] => return []
  | (t, edges) :: rest => do
    let v ← match edges[trial]? with
      | some edge => pure edge
      | none => randomValue c t
    return v :: (← arguments c trial rest)

/-- The argument lists of `count` trials from the trial `start` on. -/
def trialsFrom (c : PropertyTestConfig) (params : List (ParamType × List Json)) :
    Nat → Nat → Draw (List (List Json))
  | _, 0 => return []
  | start, count + 1 => do
    let first ← arguments c start params
    return first :: (← trialsFrom c params (start + 1) count)

/-- The argument lists of a number of trials. -/
def generate (c : PropertyTestConfig) (params : List ParamType) (trials : Nat) :
    Draw (List (List Json)) :=
  trialsFrom c (params.map fun t => (t, edgeValues c t)) 0 trials

/-! ### The order of argument lists -/

/-- How large a value is: its length with everything in it, and the magnitudes of its numbers. -/
structure Weight where
  size : Nat
  magnitude : Binary64

def Weight.add (a b : Weight) : Weight := ⟨a.size + b.size, a.magnitude + b.magnitude⟩

mutual

def weight : Json → Weight
  | .null => ⟨0, .zero⟩
  | .bool b => ⟨0, .ofNat (if b then 1 else 0)⟩
  | .int n => ⟨0, (Binary64.ofInt n).abs⟩
  | .float x => ⟨0, x.abs⟩
  | .str s => ⟨s.length, .zero⟩
  | .arr items => addWeights ⟨items.length, .zero⟩ items
  | .obj fields => ⟨fields.length, .zero⟩
termination_by structural v => v

def addWeights (acc : Weight) : List Json → Weight
  | [] => acc
  | v :: rest => addWeights (acc.add (weight v)) rest
termination_by structural vs => vs

end

def totalWeight (input : List Json) : Weight := addWeights ⟨0, .zero⟩ input

/-- Sorts by size, then by magnitude, then by the text of the values. -/
def compareInputs (a b : List Json) : Ordering :=
  let wa := totalWeight a
  let wb := totalWeight b
  (compare wa.size wb.size).then <| (wa.magnitude.totalCompare wb.magnitude).then <|
    compare (Json.arr a).compact (Json.arr b).compact

end Generator

end Vetting
