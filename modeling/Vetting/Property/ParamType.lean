import Vetting.Json
import Vetting.Text.Blank

/-!
The types of parameters for which arguments can be made up, and the annotations that name them.
-/

namespace Vetting

/-- A type of generated arguments. -/
inductive ParamType
  | bool
  | int
  | float
  | str
  | list (item : ParamType)
deriving DecidableEq

namespace ParamType

/-- The annotation that names the type. -/
def render : ParamType → String
  | .bool => "bool"
  | .int => "int"
  | .float => "float"
  | .str => "str"
  | .list t => "list[" ++ t.render ++ "]"

/-- The types named by a single word; a bare list holds whole numbers. -/
def word? (s : List Char) : Option ParamType :=
  if s = "bool".toList then some .bool
  else if s = "int".toList then some .int
  else if s = "float".toList then some .float
  else if s = "str".toList then some .str
  else if s = "list".toList then some (.list .int)
  else if s = "List".toList then some (.list .int)
  else none

/-- The text between the brackets of a list annotation. -/
def bracketed? (s : List Char) : Option (List Char) :=
  (Text.dropPrefix? "list[".toList s <|> Text.dropPrefix? "List[".toList s).bind
    (Text.dropSuffix? "]".toList)

/-- Reads an annotation; white space around a type does not count, nor does one `typing.` before it. -/
def ofChars? : Nat → List Char → Option ParamType
  | 0, _ => none
  | fuel + 1, s =>
    let text := Text.trim s
    let text := (Text.dropPrefix? "typing.".toList text).getD text
    match word? text with
    | some t => some t
    | none => (bracketed? text).bind fun inner => (ofChars? fuel inner).map .list

/-- Reads an annotation. -/
def ofText? (s : String) : Option ParamType := ofChars? (s.toList.length + 1) s.toList

mutual

/-- Whether a value is of the type. A whole number within 64 bits is an `int`, any number a `float`. -/
def accepts : ParamType → Json → Bool
  | .bool, .bool _ => true
  | .int, .int n => decide (-(UInt64.size / 2) ≤ n) && decide (n < UInt64.size)
  | .float, .int _ => true
  | .float, .float _ => true
  | .str, .str _ => true
  | .list t, .arr items => acceptsAll t items
  | _, _ => false
termination_by structural _ v => v

def acceptsAll (t : ParamType) : List Json → Bool
  | [] => true
  | v :: rest => accepts t v && acceptsAll t rest
termination_by structural vs => vs

end

end ParamType

end Vetting
