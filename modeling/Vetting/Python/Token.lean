import Vetting.Python.Offence
import Vetting.Text.Identifier

/-!
Tokens of Python source. Layout shows in two of them: `line` opens a logical line and tells how far it
is indented, `newline` closes it. A token keeps the blanks before it, so the text between two tokens
can be told exactly.
-/

namespace Vetting.Python

/-- The reserved words. -/
inductive Keyword
  | false_
  | none_
  | true_
  | and_
  | as_
  | assert_
  | async_
  | await_
  | break_
  | class_
  | continue_
  | def_
  | del_
  | elif_
  | else_
  | except_
  | finally_
  | for_
  | from_
  | global_
  | if_
  | import_
  | in_
  | is_
  | lambda_
  | nonlocal_
  | not_
  | or_
  | pass_
  | raise_
  | return_
  | try_
  | while_
  | with_
  | yield_
deriving DecidableEq

/-- The reserved words with their spellings. -/
def Keyword.spellings : List (List Char × Keyword) := [
  ("False".toList, .false_), ("None".toList, .none_), ("True".toList, .true_), ("and".toList, .and_),
  ("as".toList, .as_), ("assert".toList, .assert_), ("async".toList, .async_),
  ("await".toList, .await_), ("break".toList, .break_), ("class".toList, .class_),
  ("continue".toList, .continue_), ("def".toList, .def_), ("del".toList, .del_),
  ("elif".toList, .elif_), ("else".toList, .else_), ("except".toList, .except_),
  ("finally".toList, .finally_), ("for".toList, .for_), ("from".toList, .from_),
  ("global".toList, .global_), ("if".toList, .if_), ("import".toList, .import_),
  ("in".toList, .in_), ("is".toList, .is_), ("lambda".toList, .lambda_),
  ("nonlocal".toList, .nonlocal_), ("not".toList, .not_), ("or".toList, .or_),
  ("pass".toList, .pass_), ("raise".toList, .raise_), ("return".toList, .return_),
  ("try".toList, .try_), ("while".toList, .while_), ("with".toList, .with_),
  ("yield".toList, .yield_)]

def Keyword.ofChars? (word : List Char) : Option Keyword := spellings.lookup word

/-- The operators and marks. -/
inductive Symbol
  | openParen
  | closeParen
  | openBracket
  | closeBracket
  | openBrace
  | closeBrace
  | comma
  | colon
  | semicolon
  | point
  | ellipsis
  | arrow
  | atSign
  | equal
  | walrus
  | plus
  | minus
  | star
  | doubleStar
  | slash
  | doubleSlash
  | percent
  | tilde
  | bar
  | caret
  | ampersand
  | shiftLeft
  | shiftRight
  | less
  | greater
  | lessEqual
  | greaterEqual
  | equalEqual
  | notEqual
  /-- The spelling of inequality that is no longer allowed. -/
  | lessGreater
  /-- An operator that assigns its result. -/
  | augmented
deriving DecidableEq

/-- The symbols of three, two and one characters; a longer one is preferred. -/
def Symbol.spellings : List (List Char × Symbol) := [
  (['*', '*', '='], .augmented), (['/', '/', '='], .augmented), (['>', '>', '='], .augmented),
  (['<', '<', '='], .augmented), (['.', '.', '.'], .ellipsis),
  (['*', '*'], .doubleStar), (['/', '/'], .doubleSlash), (['<', '<'], .shiftLeft),
  (['>', '>'], .shiftRight), (['<', '='], .lessEqual), (['>', '='], .greaterEqual),
  (['=', '='], .equalEqual), (['!', '='], .notEqual), (['<', '>'], .lessGreater),
  (['-', '>'], .arrow), ([':', '='], .walrus), (['+', '='], .augmented), (['-', '='], .augmented),
  (['*', '='], .augmented), (['/', '='], .augmented), (['%', '='], .augmented),
  (['@', '='], .augmented), (['&', '='], .augmented), (['|', '='], .augmented),
  (['^', '='], .augmented),
  (['('], .openParen), ([')'], .closeParen), (['['], .openBracket), ([']'], .closeBracket),
  (['{'], .openBrace), (['}'], .closeBrace), ([','], .comma), ([':'], .colon), ([';'], .semicolon),
  (['.'], .point), (['@'], .atSign), (['='], .equal), (['+'], .plus), (['-'], .minus), (['*'], .star),
  (['/'], .slash), (['%'], .percent), (['~'], .tilde), (['|'], .bar), (['^'], .caret),
  (['&'], .ampersand), (['<'], .less), (['>'], .greater)]

def Symbol.isOpening : Symbol → Bool
  | .openParen => true
  | .openBracket => true
  | .openBrace => true
  | _ => false

def Symbol.isClosing : Symbol → Bool
  | .closeParen => true
  | .closeBracket => true
  | .closeBrace => true
  | _ => false

/-- How far a line is indented. -/
structure Indentation where
  tabs : Nat := 0
  spaces : Nat := 0
deriving DecidableEq

namespace Indentation

/-- The column when a tab counts as eight blanks. -/
def column (i : Indentation) : Nat := 8 * i.tabs + i.spaces

/-- The order of two indentations, if it does not depend on the width of a tab. -/
def compare? (a b : Indentation) : Option Ordering :=
  if a.tabs = b.tabs then some (compare a.spaces b.spaces)
  else if a.tabs < b.tabs then if a.spaces ≤ b.spaces then some .lt else none
  else if b.spaces ≤ a.spaces then some .gt
  else none

end Indentation

/-- A string literal: its marks and the text between its quotes. -/
structure StringLiteral where
  isBytes : Bool
  isRaw : Bool
  isFormatted : Bool
  content : List Char
  contentPlace : Location
deriving DecidableEq

inductive TokenKind
  /-- The start of a logical line. -/
  | line (indent : Indentation)
  /-- The end of a logical line. -/
  | newline
  | name
  | keyword (word : Keyword)
  | symbol (mark : Symbol)
  | number
  | string (literal : StringLiteral)
  /-- Characters that belong to no token. -/
  | stray
  | endOfText
deriving DecidableEq

structure Token where
  kind : TokenKind
  place : Location
  /-- The source text of the token. -/
  text : List Char
  /-- The source text between the token before and this one. -/
  gap : List Char
  /-- The joints in the gap at which a line is continued on the next. -/
  joints : List Location
  /-- What is wrong with the token although it has the shape of one. -/
  offence : Option Offence
  /-- A name is made of the characters of identifiers. -/
  spelled : kind = .name → text.all Text.isIdentifierPart = true := by intro h; cases h
deriving DecidableEq

/-- The end of a program is no name. -/
theorem spelled_endOfText : TokenKind.endOfText = .name → List.all [] Text.isIdentifierPart = true := by
  intro h
  cases h

/-- The place behind a character. -/
def advance (place : Location) (c : Char) : Location :=
  if c = '\n' then ⟨place.line + 1, 1⟩ else ⟨place.line, place.column + c.utf8Size⟩

/-- The place behind a text. -/
def advanceAll (place : Location) (text : List Char) : Location := text.foldl advance place

end Vetting.Python
