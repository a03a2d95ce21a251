import Vetting.Python.Tree
import Vetting.Text.Blank

/-!
What makes a tree that of no program: a node for broken text, a node for a mark that is not there, and a
statement that only the older dialect has. A reader that goes on behind what it cannot read leaves such nodes
anywhere in its tree; the first of them in source order is searched for with a stack.
-/

namespace Vetting.Python

/-- The statements that the older dialect has and the present one has not. -/
inductive LegacyStatement
  | print
  | exec
deriving DecidableEq

/-- Why a text is no program. -/
inductive Rejection
  /-- There is no tree at all. -/
  | unparsable
  /-- A statement that only the older dialect has. -/
  | legacy (statement : LegacyStatement) (place : Location)
  /-- Something that has to be there and is not, by its spelling. -/
  | missing (what : String) (place : Location)
  /-- Tokens that cannot stand where they do, given by their source text. -/
  | broken (text : String) (place : Location)
  /-- The tree is sound, but the compiler refuses the text. -/
  | refused (reason : String)
deriving DecidableEq

namespace Rejection

/-- At most so many characters of broken text are shown. -/
def shownLength : Nat := 40

/-- The first line of a text, cut when it is long. -/
def excerpt (text : String) : String :=
  let line := Text.trim (text.toList.takeWhile (· ≠ '\n'))
  if shownLength < line.length then String.ofList (line.take shownLength) ++ "..."
  else String.ofList line

def message : Rejection → String
  | .unparsable => "syntax error: source could not be parsed"
  | .legacy .print _ => "syntax error: Python 2 print statement"
  | .legacy .exec _ => "syntax error: Python 2 exec statement"
  | .missing what _ => "syntax error: missing '" ++ what ++ "'"
  | .broken text _ => "syntax error: invalid syntax near '" ++ excerpt text ++ "'"
  | .refused reason => "syntax error: " ++ reason

def place? : Rejection → Option Location
  | .legacy _ place => some place
  | .missing _ place => some place
  | .broken _ place => some place
  | .unparsable => none
  | .refused _ => none

end Rejection

namespace Node

/-- Whether a bracket opens behind the word `print`: then both dialects read the statement. -/
def isParenthesizedPrint (n : Node) : Bool :=
  match Text.dropPrefix? ['p', 'r', 'i', 'n', 't'] n.text.toList with
  | some rest => (Text.trimStart rest).head? = some '('
  | none => false

/-- What a node by itself makes wrong. -/
def flaw? (n : Node) : Option Rejection :=
  match n.kind with
  | .missing => some (.missing n.text n.place)
  | .error => some (.broken n.text n.place)
  | .execStatement => some (.legacy .exec n.place)
  | .printStatement => if n.isParenthesizedPrint then none else some (.legacy .print n.place)
  | _ => none

/-- Takes nodes off a stack until one is flawed. The children of a sound node go on the stack, the first of them on
top. -/
def search : List Node → Option Rejection
  | [] => none
  | n :: stack =>
    match n.flaw? with
    | some r => some r
    | none => search (n.children ++ stack)
termination_by stack => (preorderAll stack).length
decreasing_by
  rw [preorderAll_cons]
  exact Nat.lt_succ_self _

/-- The first flaw of a tree in source order. -/
def firstFlaw? (root : Node) : Option Rejection := search [root]

end Node

end Vetting.Python
