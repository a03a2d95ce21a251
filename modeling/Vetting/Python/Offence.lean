import Vetting.Finding

/-!
Offences: what makes a text that has the shape of a program no legal one. An offence has a cause and,
where one can be named, a place.
-/

namespace Vetting.Python

/-- The two declarations that send a name out of a function. -/
inductive Declaration
  | global
  | nonlocal
deriving DecidableEq

def Declaration.word : Declaration → String
  | .global => "global"
  | .nonlocal => "nonlocal"

/-- What a name has already been in a scope that declares it too late. -/
inductive EarlierUse
  | parameter
  | used
  | annotated
  | assigned
deriving DecidableEq

/-- The statements and expressions that belong into a function. -/
inductive FunctionOnly
  | returning
  | yielding
  | delegating
deriving DecidableEq

def FunctionOnly.word : FunctionOnly → String
  | .returning => "'return'"
  | .yielding => "'yield'"
  | .delegating => "'yield from'"

/-- The statements that belong into a loop. -/
inductive LoopOnly
  | breaking
  | continuing
deriving DecidableEq

def LoopOnly.word : LoopOnly → String
  | .breaking => "'break'"
  | .continuing => "'continue'"

inductive Cause
  -- Layout and literals
  | tabsAfterSpaces
  | inconsistentTabs
  | unindentMismatch
  | unexpectedIndent
  | blockExpected
  | invalidToken
  | invalidDecimal
  | invalidPoint
  | badEscape
  | bytesNotAscii
  | mixedLiterals
  | badField (reason : String)
  -- Grammar
  | unexpectedToken (text : String)
  | duplicateArgument (name : String)
  | defaultOrder
  | positionalAfterKeyword
  | unpackAfterMapping
  | repeatedKeyword (name : String)
  | bareStar
  | misplacedStar
  -- Scopes
  | lateDeclaration (name : String) (use : EarlierUse) (declaration : Declaration)
  | nonlocalAtTop (name : String)
  | nonlocalUnbound (name : String)
  | rebindsIteration (name : String)
  | bindsInIterable
  | bindsInClassComprehension
  -- Places
  | cannotAssign (target : String)
  | cannotDelete (target : String)
  | twoStarred
  | tooManyStarred
  | loneStarredTarget
  | outsideFunction (what : FunctionOnly)
  | outsideLoop (what : LoopOnly)
  | awaitOutside
  | delegationInAsync
  | valueFromAsyncGenerator
  | lateFuture
  | unknownFuture (name : String)
  | starImportInside
  | unsupportedMatch
  | unsupportedGroup
deriving DecidableEq

def Cause.message : Cause → String
  | .tabsAfterSpaces => "Tabs not allowed as part of indentation after spaces"
  | .inconsistentTabs => "inconsistent use of tabs and spaces in indentation"
  | .unindentMismatch => "unindent does not match any outer indentation level"
  | .unexpectedIndent => "unexpected indent"
  | .blockExpected => "expected an indented block"
  | .invalidToken => "Invalid Token"
  | .invalidDecimal => "Invalid decimal literal"
  | .invalidPoint => "Invalid Syntax"
  | .badEscape => "Got unexpected unicode"
  | .bytesNotAscii => "bytes can only contain ASCII literal characters"
  | .mixedLiterals => "cannot mix bytes and nonbytes literals"
  | .badField reason => "f-string: " ++ reason
  | .unexpectedToken text => "invalid syntax. Got unexpected token " ++ text
  | .duplicateArgument name => "duplicate argument '" ++ name ++ "' in function definition"
  | .defaultOrder => "non-default argument follows default argument"
  | .positionalAfterKeyword => "positional argument follows keyword argument"
  | .unpackAfterMapping => "iterable argument unpacking follows keyword argument unpacking"
  | .repeatedKeyword name => "keyword argument repeated: " ++ name
  | .bareStar => "named arguments must follow bare *"
  | .misplacedStar => "cannot use starred expression here"
  | .lateDeclaration name .parameter d => "name '" ++ name ++ "' is parameter and " ++ d.word
  | .lateDeclaration name .used d =>
    "name '" ++ name ++ "' is used prior to " ++ d.word ++ " declaration"
  | .lateDeclaration name .annotated d => "annotated name '" ++ name ++ "' can't be " ++ d.word
  | .lateDeclaration name .assigned d =>
    "name '" ++ name ++ "' is assigned to before " ++ d.word ++ " declaration"
  | .nonlocalAtTop name => "cannot define nonlocal '" ++ name ++ "' at top level."
  | .nonlocalUnbound name => "no binding for nonlocal '" ++ name ++ "' found"
  | .rebindsIteration name =>
    "assignment expression cannot rebind comprehension iteration variable " ++ name
  | .bindsInIterable =>
    "assignment expression cannot be used in a comprehension iterable expression"
  | .bindsInClassComprehension =>
    "assignment expression within a comprehension cannot be used in a class body"
  | .cannotAssign target => "cannot assign to " ++ target
  | .cannotDelete target => "cannot delete " ++ target
  | .twoStarred => "two starred expressions in assignment"
  | .tooManyStarred => "too many expressions in star-unpacking assignment"
  | .loneStarredTarget => "starred assignment target must be in a list or tuple"
  | .outsideFunction what => what.word ++ " outside function"
  | .outsideLoop what => what.word ++ " outside loop"
  | .awaitOutside => "'await' outside async function"
  | .delegationInAsync => "'yield from' inside async function"
  | .valueFromAsyncGenerator => "'return' with value inside async generator"
  | .lateFuture => "from __future__ imports must occur at the beginning of the file"
  | .unknownFuture name => "future feature " ++ name ++ " is not defined"
  | .starImportInside => "import * only allowed at module level"
  | .unsupportedMatch => "match expression is not implemented yet"
  | .unsupportedGroup => "not implemented yet"

structure Offence where
  cause : Cause
  place : Option Location
deriving DecidableEq

namespace Offence

def placed (cause : Cause) (place : Location) : Offence := ⟨cause, some place⟩

/-- The cause and its row and column, both zero if no place can be named. -/
def message (o : Offence) : String :=
  let (row, column) := match o.place with
    | some l => (l.line, l.column)
    | none => (0, 0)
  o.cause.message ++ " at row " ++ toString row ++ " col " ++ toString column

end Offence

end Vetting.Python
