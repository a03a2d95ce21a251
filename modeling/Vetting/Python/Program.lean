import Vetting.Python.Flaw
import Vetting.Python.Placement
import Vetting.Python.Recovery

/-!
Programs: the source texts that are read as a tree without flaws and that compile. Two readers decide this, and
neither knows of the other: the first gives a tree of every text, the second compiles a text or refuses it. A text
that is no program is rejected for the first thing that is wrong with it.
-/

namespace Vetting.Python

/-- What reads a source text. -/
structure Readers where
  /-- Sets the grammar of the first reader up, or says why that cannot be done. -/
  load : Except String Unit
  /-- The tree of a text, if the first reader gets to its end. -/
  tree? : List Char → Option Node
  /-- Compiles a text; the reason is given where it is no program. -/
  compile : List Char → Except String Unit

/-- The tree of a program, or why a text is none. -/
def Readers.read (readers : Readers) (text : List Char) : Except Rejection Node :=
  match readers.tree? text with
  | none => .error .unparsable
  | some root =>
    match root.firstFlaw? with
    | some r => .error r
    | none =>
      match readers.compile text with
      | .ok () => .ok root
      | .error reason => .error (.refused reason)

namespace Program

section

variable (isCharacterName : List Char → Bool)

/-- The tree of a text, with a node for what is broken where its reading stops. A lone carriage return is a blank. -/
def tree (text : List Char) : Node :=
  match parse isCharacterName .isBlank text with
  | .broken stop => Breakage.tree (Lexer.tokens .isBlank text) stop
  | .tree root _ => root

/-- Whether a text has a carriage return that no line feed follows. -/
def hasLoneReturn : List Char → Bool
  | '\r' :: '\n' :: rest => hasLoneReturn rest
  | '\r' :: _ => true
  | _ :: rest => hasLoneReturn rest
  | [] => false

/-- Whether a tree is that of a legal program. -/
def checkLegal (root : Node) (offence : Option Offence) : Except Offence Unit := do
  match offence with
  | some o => throw o
  | none =>
    Scope.check root
    Placement.checkProgram root

/-- Whether a text is legal with a reading of its lone carriage returns. -/
def checkText (reading : ReturnReading) (text : List Char) : Except Offence Unit :=
  match parse isCharacterName reading text with
  | .broken stop =>
    let t := stop.tokens.headD .nothing
    .error (.placed (.unexpectedToken ("'" ++ t.spelling ++ "'")) t.place)
  | .tree root offence => checkLegal root offence

/-- Whether a text is legal. A lone carriage return ends a line here. -/
def compile (text : List Char) : Except Offence Unit :=
  if hasLoneReturn text then checkText isCharacterName .endsLine text
  else checkText isCharacterName .isBlank text

end

end Program

/-- The readers of this library, with a table of character names. -/
def Readers.ofNames (isCharacterName : List Char → Bool) : Readers where
  load := .ok ()
  tree? text := some (Program.tree isCharacterName text)
  compile text := (Program.compile isCharacterName text).mapError Offence.message

/-- The readers without a true table of character names: a name that no character has is not noticed. -/
def Readers.standard : Readers := .ofNames Literal.isNameShaped

/-- The syntax tree of a program. -/
def Program.read (text : List Char) : Except Rejection Node := Readers.standard.read text

end Vetting.Python
