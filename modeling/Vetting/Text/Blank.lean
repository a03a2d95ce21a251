/-!
White space as Unicode has it, and texts without it at their ends.
-/

namespace Vetting.Text

/-- The characters with the Unicode property White_Space. -/
def isBlank (c : Char) : Bool :=
  let n := c.toNat
  (9 ≤ n && n ≤ 13) || n = 0x20 || n = 0x85 || n = 0xA0 || n = 0x1680 || (0x2000 ≤ n && n ≤ 0x200A)
    || n = 0x2028 || n = 0x2029 || n = 0x202F || n = 0x205F || n = 0x3000

def trimStart (s : List Char) : List Char := s.dropWhile isBlank

def trimEnd (s : List Char) : List Char := (s.reverse.dropWhile isBlank).reverse

def trim (s : List Char) : List Char := trimEnd (trimStart s)

/-- Whether nothing but white space is there. -/
def isAllBlank (s : String) : Bool := s.toList.all isBlank

/-- The text behind `start`, if the text starts so. -/
def dropPrefix? : List Char → List Char → Option (List Char)
  | [], s => some s
  | _ :: _, [] => none
  | p :: ps, c :: cs => if p = c then dropPrefix? ps cs else none

/-- The text before `ending`, if the text ends so. -/
def dropSuffix? (ending s : List Char) : Option (List Char) :=
  (dropPrefix? ending.reverse s.reverse).map List.reverse

end Vetting.Text
