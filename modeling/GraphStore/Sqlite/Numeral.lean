import GraphStore.Number.DecimalText
import GraphStore.Number.Exact
import GraphStore.Sqlite.Cell

/-!
# Numbers in text

How a text is taken for a number, and how a number becomes text. A text may hold a number as a
whole, with blanks around it, or only begin with one; `Scan` keeps the pieces that decide.
-/

set_option autoImplicit false

namespace GraphStore.Sqlite

def isDigitByte (b : UInt8) : Bool := 0x30 ≤ b && b ≤ 0x39

def isBlankByte (b : UInt8) : Bool := b == 0x20 || (0x09 ≤ b && b ≤ 0x0D)

/-- The number written by decimal digits. -/
def digitsValue (ds : List UInt8) : Nat := ds.foldl (fun n d => n * 10 + (d.toNat - 0x30)) 0

/-- The pieces of a number at the front of a text. -/
structure Scan where
  negative : Bool
  whole : List UInt8
  point : Bool
  fraction : List UInt8
  /-- An exponent was announced. -/
  mark : Bool
  /-- The exponent, when it has digits. -/
  exponent : Option Int
  /-- Nothing but blanks follows. -/
  complete : Bool

namespace Scan

/-- A sign at the front: whether it is a minus, and what follows. -/
def takeSign : List UInt8 → Bool × List UInt8
  | 0x2D :: rest => (true, rest)
  | 0x2B :: rest => (false, rest)
  | s => (false, s)

/-- An exponent, after its mark; beyond ten thousand all are alike. -/
def readExponent (s : List UInt8) : Option Int × List UInt8 :=
  let (negative, rest) := takeSign s
  let ds := rest.takeWhile isDigitByte
  if ds.isEmpty then (none, rest)
  else
    let e : Int := min (digitsValue ds) 10000
    (some (if negative then -e else e), rest.dropWhile isDigitByte)

def ofBytes (s : List UInt8) : Scan :=
  let (negative, s) := takeSign (s.dropWhile isBlankByte)
  let whole := s.takeWhile isDigitByte
  let s := s.dropWhile isDigitByte
  let point := s.head? == some 0x2E
  let s := if point then s.drop 1 else s
  let fraction := if point then s.takeWhile isDigitByte else []
  let s := if point then s.dropWhile isDigitByte else s
  let mark := s.head? == some 0x65 || s.head? == some 0x45
  let (exponent, s) := if mark then readExponent (s.drop 1) else (none, s)
  { negative, whole, point, fraction, mark, exponent, complete := (s.dropWhile isBlankByte).isEmpty }

def hasDigits (n : Scan) : Bool := !n.whole.isEmpty || !n.fraction.isEmpty

/-- Digits alone. -/
def isInteger (n : Scan) : Bool := !n.point && !n.mark

/-- The text is a number as a whole. -/
def isNumber (n : Scan) : Bool :=
  n.complete && n.hasDigits && (!n.mark || n.exponent.isSome)

/-- A point or an exponent belongs to the number, so that it is no integer even if more text
follows. -/
def isReal (n : Scan) : Bool :=
  n.hasDigits && ((n.point && n.mark) || (n.point || n.mark) && (!n.mark || n.exponent.isSome))

/-- The number nearest to what is written. -/
def real (n : Scan) : Binary64 :=
  let digits := digitsValue (n.whole ++ n.fraction)
  let e := n.exponent.getD 0 - n.fraction.length
  if 0 ≤ e then Binary64.ofRatio n.negative (digits * Nat.pow 10 e.toNat) 1
  else Binary64.ofRatio n.negative digits (Nat.pow 10 (-e).toNat)

/-- The integer written before any point. -/
def integer (n : Scan) : Int :=
  let v : Int := digitsValue n.whole
  if n.negative then -v else v

end Scan

/-- The integer as a cell, when it fits. -/
def Cell.ofInt? (n : Int) : Option Cell :=
  if Int64.minValue.toInt ≤ n ∧ n ≤ Int64.maxValue.toInt then some (.integer (Int64.ofInt n))
  else none

/-- The nearest integer of 64 bits. -/
def clampInt64 (n : Int) : Int64 :=
  Int64.ofInt (max Int64.minValue.toInt (min Int64.maxValue.toInt n))

/-- The number that a text is as a whole, an integer when it is written and fits as one. -/
def wholeNumber? (s : List UInt8) : Option Cell :=
  let n := Scan.ofBytes s
  if !n.isNumber then none
  else if n.isInteger then some ((Cell.ofInt? n.integer).getD (.real n.real))
  else some (.real n.real)

/-- The number that a text stands for in a calculation: what it begins with, or zero. -/
def leadingNumber (s : List UInt8) : Cell :=
  let n := Scan.ofBytes s
  if n.isReal then .real n.real
  else (Cell.ofInt? n.integer).getD (.real n.real)

/-- A number in fifteen significant digits, always with a point, and with an exponent when it is
very small or has more than fifteen places before the point. -/
def realText (x : Binary64) : String :=
  let sign := if x.negative && !x.isZero then "-" else ""
  if x.isInfinite then sign ++ "Inf"
  else if x.isZero then "0.0"
  else
    let d := x.rounded 15
    let ds := toString d.digits
    let place : Int := d.shift + ds.length - 1
    let body :=
      if place < -4 ∨ 14 < place then
        let rest := String.ofList (ds.toList.drop 1)
        let e := toString place.natAbs
        String.ofList (ds.toList.take 1) ++ "." ++ (if rest.isEmpty then "0" else rest) ++ "e" ++
          (if place < 0 then "-" else "+") ++ (if e.length < 2 then "0" ++ e else e)
      else if 0 ≤ d.shift then Binary64.positional d ++ ".0" else Binary64.positional d
    sign ++ body

example : realText (Binary64.ofInt (10 ^ 15)) = "1.0e+15" := by decide +kernel
example : realText (Binary64.ofRatio true 1 10) = "-0.1" := by decide +kernel
example : realText (Binary64.ofInt 100) = "100.0" := by decide +kernel

namespace Cell

/-- The bytes of a cell read as text. -/
def bytes : Cell → List UInt8
  | null => []
  | integer n => Text.utf8 (toString n.toInt)
  | real x => Text.utf8 (realText x)
  | text s => s
  | blob s => s

/-- The number that a cell stands for in a calculation. -/
def number : Cell → Cell
  | null => null
  | integer n => integer n
  | real x => real x
  | text s => leadingNumber s
  | blob s => leadingNumber s

/-- The real number that a cell stands for. -/
def toReal (c : Cell) : Binary64 :=
  match c with
  | null => Binary64.zero
  | integer n => Binary64.ofInt n.toInt
  | real x => x
  | text s => (Scan.ofBytes s).real
  | blob s => (Scan.ofBytes s).real

/-- The integer that a cell stands for: a fraction is cut off, and the ends hold what lies beyond
them. -/
def toInteger : Cell → Int64
  | null => 0
  | integer n => n
  | real x => x.toInt64
  | text s => clampInt64 (Scan.ofBytes s).integer
  | blob s => clampInt64 (Scan.ofBytes s).integer

/-- The truth of a cell: null is unknown, zero is false. -/
def truth (c : Cell) : Truth :=
  match c with
  | null => none
  | integer n => some (n != 0)
  | c => some (!c.toReal.isZero)

end Cell

end GraphStore.Sqlite
