import Vetting.Sandbox.Job

/-!
The import guard: the program inside a sandbox looks at every import of the code that it runs, and refuses a module
which the job forbids, or which a package holds that the job forbids.
-/

namespace Vetting.ImportGuard

/-! ### Dotted names -/

/-- What stands between the points of a name; there is always a last part. -/
def parts : List Char → List (List Char)
  | [] => [[]]
  | c :: rest =>
    if c = '.' then [] :: parts rest
    else match parts rest with
      | [] => [[c]]
      | part :: more => (c :: part) :: more

/-- Parts with a point between any two of them. -/
def joined : List (List Char) → List Char
  | [] => []
  | [part] => part
  | part :: next :: more => part ++ '.' :: joined (next :: more)

/-- The first `k` parts of a name as a name. -/
def leading (k : Nat) (name : String) : String := String.ofList (joined ((parts name.toList).take k))

/-- The packages that hold a module, outermost first, and then the module itself. -/
def packages (name : String) : List String :=
  (List.range (parts name.toList).length).map fun i => leading (i + 1) name

/-! ### Refusals -/

/-- What is put on record when an import is refused. -/
def violation (name : String) : String := "import of forbidden module '" ++ name ++ "'"

/-- Looks at the import of a module: a refusal, or none when the import goes on. The level counts the points in front
of a relative import, and a relative import is not looked at. -/
def refusal? (job : Job) (name : String) (level : Nat) : Option String :=
  if level = 0 && (packages name).any job.forbiddenModules.contains then some (violation name) else none

end Vetting.ImportGuard
