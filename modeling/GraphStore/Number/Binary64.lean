/-!
# Binary floating point of double precision

A number is its 64 bits: a sign, eleven bits of exponent and 52 bits of fraction. Comparison,
rounding and decoding are stated on the bits, so they compute inside the logic; only sums and
products go through the machine's arithmetic.
-/

set_option autoImplicit false

namespace GraphStore

/-- A double precision number, by its bits. -/
structure Binary64 where
  bits : UInt64
deriving DecidableEq, Repr, Inhabited

namespace Binary64

def ofFloat (x : Float) : Binary64 := ⟨x.toBits⟩

def toFloat (x : Binary64) : Float := Float.ofBits x.bits

/-! ## The three parts -/

def negative (x : Binary64) : Bool := decide ((1 <<< 63) ≤ x.bits.toNat)

def exponent (x : Binary64) : Nat := x.bits.toNat >>> 52 % 2048

def fraction (x : Binary64) : Nat := x.bits.toNat % (1 <<< 52)

/-- The bits without the sign; on numbers of one sign they grow with the absolute value. -/
def magnitude (x : Binary64) : Nat := x.bits.toNat % (1 <<< 63)

def isNaN (x : Binary64) : Bool := x.exponent == 2047 && x.fraction != 0

def isInfinite (x : Binary64) : Bool := x.exponent == 2047 && x.fraction == 0

def isZero (x : Binary64) : Bool := x.magnitude == 0

/-! ## The value

A finite number is `± significand · 2 ^ scale`. -/

def significand (x : Binary64) : Nat :=
  if x.exponent = 0 then x.fraction else x.fraction + (1 <<< 52)

def scale (x : Binary64) : Int := (max x.exponent 1 : Nat) - 1075

/-! ## Comparison -/

/-- An integer that orders the numbers that are not NaN; both zeros have the key `0`. -/
def orderKey (x : Binary64) : Int :=
  if x.negative then -(x.magnitude : Int) else x.magnitude

/-- Equality of values: NaN equals nothing and the two zeros are equal. -/
def same (x y : Binary64) : Bool := !x.isNaN && !y.isNaN && x.orderKey == y.orderKey

/-! ## Rounding to the nearest number -/

/-- The quotient rounded to the nearest integer, a half to the even neighbour. -/
def divideToEven (num den : Nat) : Nat :=
  let q := num / den
  let r := num % den
  if 2 * r > den ∨ (2 * r = den ∧ q % 2 = 1) then q + 1 else q

/-- The quotient `num / den` in units of `2 ^ e`, rounded to even. -/
def unitsOf (num den : Nat) (e : Int) : Nat :=
  if 0 ≤ e then divideToEven num (den <<< e.toNat)
  else divideToEven (num <<< (-e).toNat) den

/-- The bits of the number nearest to the positive quotient `num / den`: the unit is chosen so
that 53 bits remain, but never below the smallest one, and what exceeds the range is infinite. -/
def nearestBits (num den : Nat) : Nat :=
  if num = 0 then 0 else
    let guess : Int := (Nat.log2 num : Int) - Nat.log2 den - 52
    let e := if unitsOf num den guess < (1 <<< 52) then guess - 1 else guess
    let e := max e (-1074)
    let m := unitsOf num den e
    let (m, e) := if m = (1 <<< 53) then (1 <<< 52, e + 1) else (m, e)
    if e > 971 then 2047 <<< 52
    else if m < (1 <<< 52) then m
    else ((e + 1075).toNat <<< 52) + (m - (1 <<< 52))

/-- The number nearest to `± num / den`. -/
def ofRatio (negative : Bool) (num den : Nat) : Binary64 :=
  ⟨UInt64.ofNat (nearestBits num den + if negative then 1 <<< 63 else 0)⟩

/-- The number nearest to an integer. -/
def ofInt (n : Int) : Binary64 := ofRatio (decide (n < 0)) n.natAbs 1

def zero : Binary64 := ⟨0⟩

example : (ofInt 1).bits = 0x3ff0000000000000 := by decide +kernel
example : (ofInt (-9007199254740993)).bits = 0xc340000000000000 := by decide +kernel
example : (ofRatio false 1 10).bits = 0x3fb999999999999a := by decide +kernel
example : (ofRatio false 5 (10 ^ 324)).bits = 1 := by decide +kernel

end Binary64

end GraphStore
