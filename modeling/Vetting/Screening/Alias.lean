import Vetting.Python.Tree

/-!
Names that imports give to modules and their members, and dotted names seen through them.
-/

namespace Vetting.Screening

open Python

/-- A name that an import binds, and the dotted name that it stands for. -/
structure Alias where
  name : String
  target : String
deriving DecidableEq

/-- What an imported name is fetched as: the name itself, or what stands before `as`. -/
def fetched (n : Node) : Node :=
  if n.kind = .aliasedImport then (n.child? .name).getD n else n

/-- The names that are imported by a statement. -/
def importedNames (statement : Node) : List Node := statement.childrenAs .name

/-- The module of a from-import that names one from the top. -/
def sourceModule? (statement : Node) : Option Node :=
  (statement.child? .moduleName).filter (·.kind ≠ .relativeImport)

namespace Alias

/-- The binding of `import m as a`; a plain `import m` binds no other name. -/
def ofImported (n : Node) : Option Alias :=
  if n.kind = .aliasedImport then
    (n.child? .newName).map fun a => ⟨a.text, (fetched n).text⟩
  else none

/-- The binding of one name of a from-import. -/
def ofMember (module n : Node) : Alias :=
  ⟨((n.child? .newName).getD (fetched n)).text, module.text ++ "." ++ (fetched n).text⟩

/-- The bindings of a statement, in order. -/
def ofStatement (n : Node) : List Alias :=
  match n.kind with
  | .importStatement => (importedNames n).filterMap ofImported
  | .importFrom =>
    match sourceModule? n with
    | some module => (importedNames n).map (ofMember module)
    | none => []
  | _ => []

/-- The bindings of a program, the ones that win first: an earlier statement wins over a later one, and
within a statement a later name over an earlier. -/
def ofTree (root : Node) : List Alias :=
  root.preorder.flatMap fun n => (ofStatement n).reverse

/-- A dotted name with its first part replaced by what that part stands for. -/
def resolve (aliases : List Alias) (dotted : String) : String :=
  let head := String.ofList (dotted.toList.takeWhile (· ≠ '.'))
  let tail := String.ofList (dotted.toList.dropWhile (· ≠ '.'))
  match aliases.find? (·.name = head) with
  | some a => a.target ++ tail
  | none => dotted

end Alias

/-- The dotted name that an expression is, if it is a name or an attribute of a dotted name. -/
def dottedName? : Node → Option String
  | .mk .identifier _ _ text _ => some text
  | .mk .attribute _ _ _ [object, member] =>
    (dottedName? object).map fun o => o ++ "." ++ member.text
  | _ => none

end Vetting.Screening
