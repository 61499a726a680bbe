import GraphStore.Text.Hex

/-!
# Universally unique identifiers

Sixteen bytes, written as 32 lower case hexadecimal digits in five groups joined by hyphens.
`Uuid.parse?` accepts that form in either case, also in braces or after a URN heading, and the
32 digits without hyphens.
-/

set_option autoImplicit false

namespace GraphStore

/-- Sixteen bytes. -/
structure Uuid where
  bytes : List UInt8
  length_eq : bytes.length = 16
deriving DecidableEq, Repr

namespace Uuid

open Text

def ofBytes? (bytes : List UInt8) : Option Uuid :=
  if h : bytes.length = 16 then some ⟨bytes, h⟩ else none

/-- All bytes zero: the identifier of nothing. -/
def nil : Uuid := ⟨List.replicate 16 0, rfl⟩

instance : Inhabited Uuid := ⟨nil⟩

def isNil (u : Uuid) : Bool := u.bytes.all (· == 0)

/-- `u` with the bits that mark a random identifier: version four, variant one. -/
def markRandom (u : Uuid) : Uuid where
  bytes := (u.bytes.modify 6 (fun b => b &&& 0x0f ||| 0x40)).modify 8
    (fun b => b &&& 0x3f ||| 0x80)
  length_eq := by simp [u.length_eq]

/-! ## Text -/

/-- The 32 digits cut into groups of 8, 4, 4, 4 and 12. -/
def hyphenate (digits : List Char) : List Char :=
  digits.take 8 ++ '-' :: ((digits.drop 8).take 4 ++ '-' :: ((digits.drop 12).take 4 ++
    '-' :: ((digits.drop 16).take 4 ++ '-' :: digits.drop 20)))

/-- The canonical text. -/
def text (u : Uuid) : String := String.ofList (hyphenate (bytesDigits u.bytes))

/-- The digits of a text with hyphens after the 8th, 12th, 16th and 20th of them. -/
def unhyphenate? (s : List Char) : Option (List Char) :=
  if s.length = 36 ∧ s[8]? = some '-' ∧ s[13]? = some '-' ∧ s[18]? = some '-' ∧ s[23]? = some '-'
  then some (s.take 8 ++ (s.drop 9).take 4 ++ (s.drop 14).take 4 ++ (s.drop 19).take 4 ++
    s.drop 24)
  else none

/-- What stands inside the braces or after the URN heading, for a text that has them. -/
def unwrap? (s : List Char) : Option (List Char) :=
  if s.length = 38 ∧ s.head? = some '\x7b' ∧ s.getLast? = some '\x7d' then
    some (s.tail.take 36)
  else if s.take 9 = "urn:uuid:".toList ∨ s.take 9 = "URN:UUID:".toList then some (s.drop 9)
  else none

/-- The identifier that a text writes. -/
def parse? (s : String) : Option Uuid := do
  let cs := s.toList
  let digits ←
    if cs.length = 32 then some cs
    else match unwrap? cs with
      | some inner => unhyphenate? inner
      | none => unhyphenate? cs
  let bytes ← readBytes? digits
  ofBytes? bytes

end Uuid

end GraphStore
