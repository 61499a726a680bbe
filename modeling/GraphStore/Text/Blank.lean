/-!
# Blank characters

The characters with the Unicode property `White_Space`, and the removal of a blank tail.
-/

set_option autoImplicit false

namespace GraphStore.Text

/-- The property `White_Space`: 25 code points, in order. -/
def blankCodes : List Nat :=
  [0x09, 0x0a, 0x0b, 0x0c, 0x0d, 0x20, 0x85, 0xa0, 0x1680, 0x2000, 0x2001, 0x2002, 0x2003,
   0x2004, 0x2005, 0x2006, 0x2007, 0x2008, 0x2009, 0x200a, 0x2028, 0x2029, 0x202f, 0x205f,
   0x3000]

def isBlank (c : Char) : Bool := blankCodes.contains c.toNat

example : blankCodes.length = 25 := rfl

/-- The list without the blank characters at its end. -/
def dropBlankEnd : List Char → List Char
  | [] => []
  | c :: rest =>
      match dropBlankEnd rest with
      | [] => if isBlank c then [] else [c]
      | kept => c :: kept

/-- The text without the blank characters at its end. -/
def trimBlankEnd (s : String) : String := String.ofList (dropBlankEnd s.toList)

end GraphStore.Text
