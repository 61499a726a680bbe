import GraphStore.Number.Binary64

/-!
# The shortest decimal that reads back

Every double precision number stands for the interval of reals that round to it. `shortest?`
finds the fewest decimal digits whose value lies in that interval and, among decimals of that
length, the one nearest to the number. All of it is exact arithmetic on naturals: a number is a
quotient `num / den`, and a decimal is `digits · 10 ^ shift`.
-/

set_option autoImplicit false

namespace GraphStore

/-- A decimal `digits · 10 ^ shift`. -/
structure Decimal where
  digits : Nat
  shift : Int
deriving DecidableEq, Repr

namespace Decimal

/-- The decimal as a quotient. -/
def ratio (d : Decimal) : Nat × Nat :=
  if 0 ≤ d.shift then (d.digits * Nat.pow 10 d.shift.toNat, 1)
  else (d.digits, Nat.pow 10 (-d.shift).toNat)

/-- Ten units of a place are one unit of the next. Rounding up from nine gives ten units; no other
shortest decimal ends in a zero, for it would have been found with a digit less. -/
def carried (d : Decimal) : Decimal :=
  if d.digits = 10 then ⟨1, d.shift + 1⟩ else d

end Decimal

namespace Binary64

/-- `k · 2 ^ e` as a quotient. -/
def dyadic (k : Nat) (e : Int) : Nat × Nat :=
  if 0 ≤ e then (k <<< e.toNat, 1) else (k, 1 <<< (-e).toNat)

/-- The reals that round to a positive number, as the ends of an interval in quarter units, and
whether the ends belong to it. The number below a power of two is only half a unit away. -/
structure Neighbourhood where
  low : Nat × Nat
  value : Nat × Nat
  high : Nat × Nat
  closed : Bool

def neighbourhood (x : Binary64) : Neighbourhood :=
  let m := x.significand
  let below := if x.fraction = 0 ∧ 1 < x.exponent then 1 else 2
  let e := x.scale - 2
  { low := dyadic (4 * m - below) e
    value := dyadic (4 * m) e
    high := dyadic (4 * m + 2) e
    closed := m % 2 = 0 }

def ratioLess (a b : Nat × Nat) : Bool := decide (a.1 * b.2 < b.1 * a.2)

def Neighbourhood.contains (i : Neighbourhood) (q : Nat × Nat) : Bool :=
  if i.closed then !ratioLess q i.low && !ratioLess i.high q
  else ratioLess i.low q && ratioLess q i.high

/-- The least `k ≤ fuel` with `den ≤ num * 10 ^ k`. -/
def shiftUp (num den : Nat) : Nat → Nat
  | 0 => 0
  | fuel + 1 => if den ≤ num then 0 else shiftUp (num * 10) den fuel + 1

/-- The place of the first digit of a positive quotient: `10 ^ p ≤ num / den < 10 ^ (p + 1)`. -/
def firstPlace (num den : Nat) : Int :=
  if den ≤ num then ((Nat.toDigits 10 (num / den)).length : Int) - 1
  else -(shiftUp num den 400 : Int)

/-- The distance of a decimal from a value, over a common denominator. -/
def distance (value : Nat × Nat) (d : Decimal) : Nat :=
  let q := d.ratio
  let a := q.1 * value.2
  let b := value.1 * q.2
  (a - b) + (b - a)

/-- The decimal with its last digit `10 ^ shift` that lies in the interval nearest to the value:
of its two neighbours on that grid the nearer, the upper one when both are equally near. -/
def onGrid? (i : Neighbourhood) (shift : Int) : Option Decimal :=
  let floor :=
    if 0 ≤ shift then i.value.1 / (i.value.2 * Nat.pow 10 shift.toNat)
    else i.value.1 * Nat.pow 10 (-shift).toNat / i.value.2
  let lower : Decimal := ⟨floor, shift⟩
  let upper : Decimal := ⟨floor + 1, shift⟩
  match i.contains lower.ratio, i.contains upper.ratio with
  | false, false => none
  | true, false => some lower
  | false, true => some upper
  | true, true => some (if distance i.value lower < distance i.value upper then lower else upper)

/-- The first grid with a hit, from `count` digits on, for at most `fuel` grids. -/
def firstHit? (i : Neighbourhood) (place : Int) (count : Nat) : Nat → Option Decimal
  | 0 => none
  | fuel + 1 =>
      match onGrid? i (place + 1 - count) with
      | some d => some d
      | none => firstHit? i place (count + 1) fuel

/-- The shortest decimal that reads back as the absolute value of `x`; zero is `0 · 10 ^ 0`.
Seventeen digits are always enough. -/
def shortest (x : Binary64) : Decimal :=
  if x.significand = 0 then ⟨0, 0⟩ else
    let i := x.neighbourhood
    ((firstHit? i (firstPlace i.value.1 i.value.2) 1 17).getD ⟨0, 0⟩).carried

example : (ofRatio false 1 10).shortest = ⟨1, -1⟩ := by decide +kernel
example : (ofRatio false 1 10000000).shortest = ⟨1, -7⟩ := by decide +kernel
example : (⟨1⟩ : Binary64).shortest = ⟨5, -324⟩ := by decide +kernel
example : (ofInt 123456789012345680).shortest = ⟨12345678901234568, 1⟩ := by decide +kernel

end Binary64

end GraphStore
