import Vetting.Finding

/-!
Severity scales: how the levels of an analyzer translate into severities. A scale never maps a higher
level to a lower severity.
-/

namespace Vetting

/-- The levels of an analyzer, lowest first, with their severities. -/
structure Scale where
  levels : List (String × Severity)

namespace Scale

/-- The first level whose severity lies below that of the level before it. -/
def firstDrop? : List (String × Severity) → Option String
  | (_, s) :: (name, t) :: rest => if t < s then some name else firstDrop? ((name, t) :: rest)
  | _ => none

/-- A scale, or the level at which it falls. -/
def ofLevels (levels : List (String × Severity)) : Except String Scale :=
  match firstDrop? levels with
  | some name => .error name
  | none => .ok ⟨levels⟩

/-- A text with its ASCII letters in lower case. -/
def foldCase (s : String) : List Char := s.toList.map Char.toLower

/-- The severity of a level, whatever the case of its letters; an unknown level is a warning. -/
def severityOf (scale : Scale) (level : String) : Severity :=
  match scale.levels.find? fun (name, _) => foldCase name = foldCase level with
  | some (_, s) => s
  | none => .warning

end Scale

end Vetting
