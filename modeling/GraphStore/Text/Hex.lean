/-!
# Bytes in hexadecimal

Two digits a byte, the high one first. Reading takes digits of either case.
-/

set_option autoImplicit false

namespace GraphStore.Text

/-- A hexadecimal digit in lower case; values above 15 have none. -/
def hexDigit (n : Nat) : Char :=
  if n < 10 then Char.ofNat (48 + n) else Char.ofNat (87 + n)

/-- The value of a hexadecimal digit of either case. -/
def hexValue? (c : Char) : Option Nat :=
  if '0' ≤ c ∧ c ≤ '9' then some (c.toNat - 48)
  else if 'a' ≤ c ∧ c ≤ 'f' then some (c.toNat - 87)
  else if 'A' ≤ c ∧ c ≤ 'F' then some (c.toNat - 55)
  else none

/-- The two digits of a byte. -/
def byteDigits (b : UInt8) : List Char := [hexDigit (b.toNat / 16), hexDigit (b.toNat % 16)]

/-- The digits of all bytes. -/
def bytesDigits (bs : List UInt8) : List Char := bs.flatMap byteDigits

/-- The bytes written by pairs of digits. -/
def readBytes? : List Char → Option (List UInt8)
  | [] => some []
  | [_] => none
  | h :: l :: rest => do
      let high ← hexValue? h
      let low ← hexValue? l
      let bytes ← readBytes? rest
      return UInt8.ofNat (high * 16 + low) :: bytes

/-- The digits of a number, without leading zeros. -/
def hexNumeral (n : Nat) : List Char := Nat.toDigits 16 n

end GraphStore.Text
