import GraphStore.Number.Shortest

/-!
# Exact values of floating point numbers

A finite number is a quotient of integers, so it can be compared with an integer, cut to an
integer and rounded to a number of decimal digits without rounding twice. What is said here of
NaN is arbitrary.
-/

set_option autoImplicit false

namespace GraphStore.Binary64

/-- The exact absolute value of a finite number, as a quotient. -/
def ratio (x : Binary64) : Nat × Nat := dyadic x.significand x.scale

/-- How an integer compares with a number. -/
def compareInt (n : Int) (x : Binary64) : Ordering :=
  if x.isInfinite then if x.negative then .gt else .lt
  else
    let (num, den) := x.ratio
    compare (n * den) (if x.negative then -(num : Int) else num)

/-- How two numbers compare. -/
def compareReal (x y : Binary64) : Ordering := compare x.orderKey y.orderKey

/-- The integer part of a finite number; the fraction is cut off. -/
def truncated (x : Binary64) : Int :=
  let (num, den) := x.ratio
  if x.negative then -((num / den : Nat) : Int) else (num / den : Nat)

/-- The integer part in 64 bits. From the last number before `2 ^ 63` on, and likewise below, it is
the largest and the smallest integer. -/
def toInt64 (x : Binary64) : Int64 :=
  let bound : Int := 0x7FFFFFFFFFFFFC00
  let n := if x.isInfinite then (if x.negative then -bound else bound) else x.truncated
  if n ≤ -bound then Int64.minValue else if bound ≤ n then Int64.maxValue else Int64.ofInt n

/-- The integer that a number is, when it is one strictly between the ends of 64 bits. -/
def exactInt64? (x : Binary64) : Option Int64 :=
  let n := x.toInt64
  if n ≠ Int64.minValue ∧ n ≠ Int64.maxValue ∧ compareInt n.toInt x = .eq then some n else none

/-- The decimal with `count` digits nearest to the absolute value of a number other than zero, a
half going away from zero; fewer digits when it ends in zeros. -/
def rounded (count : Nat) (x : Binary64) : Decimal :=
  let (num, den) := x.ratio
  let shift : Int := firstPlace num den + 1 - count
  let scaled : Nat × Nat :=
    if 0 ≤ shift then (num, den * Nat.pow 10 shift.toNat) else (num * Nat.pow 10 (-shift).toNat, den)
  stripped count ((2 * scaled.1 + scaled.2) / (2 * scaled.2)) shift
where
  /-- Takes up to `fuel` zeros off the end. -/
  stripped : Nat → Nat → Int → Decimal
    | 0, n, shift => ⟨n, shift⟩
    | fuel + 1, n, shift => if n % 10 = 0 then stripped fuel (n / 10) (shift + 1) else ⟨n, shift⟩

example : (ofRatio false 1 10).rounded 15 = ⟨1, -1⟩ := by decide +kernel
example : (ofRatio true 2 3).rounded 15 = ⟨666666666666667, -15⟩ := by decide +kernel
example : (ofInt (-7)).toInt64 = -7 := by decide +kernel
example : compareInt 1 (ofRatio false 10 9) = .lt := by decide +kernel

end GraphStore.Binary64
