/-!
# Decimal numerals of a fixed width

`digitsOf width n` is the decimal numeral of `n` with exactly `width` digits, and `takeNumeral?`
reads such a numeral off the front of a text.
-/

set_option autoImplicit false

namespace GraphStore.Text

def isDigit (c : Char) : Bool := '0' ≤ c && c ≤ '9'

/-- The digit of a number below ten. -/
def decimalDigit (n : Nat) : Char := Char.ofNat (48 + n % 10)

/-- The last `width` digits of `n`, with zeros in front where `n` has fewer. -/
def digitsOf : Nat → Nat → List Char
  | 0, _ => []
  | width + 1, n => digitsOf width (n / 10) ++ [decimalDigit n]

@[simp] theorem length_digitsOf (width n : Nat) : (digitsOf width n).length = width := by
  induction width generalizing n with
  | zero => rfl
  | succ w ih => simp [digitsOf, ih]

/-- The number written by decimal digits, after the digits that gave `acc`. -/
def readDigits (acc : Nat) : List Char → Nat
  | [] => acc
  | c :: rest => readDigits (acc * 10 + (c.toNat - 48)) rest

/-- Exactly `width` decimal digits at the front of `s`: their number and what follows. -/
def takeNumeral? (width : Nat) (s : List Char) : Option (Nat × List Char) :=
  let front := s.take width
  if front.length = width ∧ front.all isDigit then some (readDigits 0 front, s.drop width)
  else none

/-- The text filled up with zeros in front to at least `width` characters. -/
def padZeros (width : Nat) (s : String) : String :=
  String.ofList (List.replicate (width - s.length) '0') ++ s

end GraphStore.Text
