import GraphStore.Number.Exact
import GraphStore.Text.Utf8
import GraphStore.Value.Basic

/-!
# Cells

What a table holds and an expression yields: null, an integer, a real number, a text or a blob. A
text is kept as bytes, which need not be well formed when a blob was cast to text. A real number
is never NaN, which is stored as null.

`Cell.ofValue` holds a value in full, and `Cell.value` is what reading a cell gives.
-/

set_option autoImplicit false

namespace GraphStore.Sqlite

open Text (utf8 readUtf8)

inductive Cell where
  | null
  | integer (n : Int64)
  | real (x : Binary64)
  | text (bytes : List UInt8)
  | blob (bytes : List UInt8)
deriving DecidableEq, Inhabited, Repr

/-- Truth with a third value, `none`, for what depends on a null. -/
abbrev Truth := Option Bool

namespace Truth

def and : Truth → Truth → Truth
  | some false, _ => some false
  | _, some false => some false
  | some true, some true => some true
  | _, _ => none

def or : Truth → Truth → Truth
  | some true, _ => some true
  | _, some true => some true
  | some false, some false => some false
  | _, _ => none

def not (t : Truth) : Truth := t.map (!·)

end Truth

namespace Cell

def ofText (s : String) : Cell := text (utf8 s)

def ofReal (x : Binary64) : Cell := if x.isNaN then null else real x

def ofBool (b : Bool) : Cell := integer (if b then 1 else 0)

def ofTruth (t : Truth) : Cell := t.elim null ofBool

def isNull (c : Cell) : Bool := c == null

/-- The name of the storage class. -/
def className : Cell → String
  | null => "null"
  | integer _ => "integer"
  | real _ => "real"
  | text _ => "text"
  | blob _ => "blob"

/-! ## Binding and reading -/

/-- What a value is stored as, in full: truth values and integers as integers, points in time and
identifiers as text. -/
def ofValue : Value → Cell
  | .boolean (some b) => ofBool b
  | .int32 (some n) => integer (Int64.ofInt n.toInt)
  | .int64 (some n) => integer n
  | .float64 (some x) => ofReal x
  | .varchar (some s) => ofText s
  | .blob (some bytes) => blob bytes
  | .timestamp (some t) => ofText t.storedText
  | .uuid (some u) => ofText u.text
  | _ => null

/-- The value that a cell is read as. -/
def value : Cell → Value
  | null => .null
  | integer n => .int64 (some n)
  | real x => .float64 (some x)
  | text bytes => .varchar (some (readUtf8 bytes))
  | blob bytes => .blob (some bytes)

@[simp] theorem value_ofText (s : String) : (ofText s).value = .varchar (some s) := by
  simp [ofText, value]

@[simp] theorem ofValue_of_isNull (v : Value) (h : v.isNull = true) : ofValue v = null := by
  unfold ofValue
  split <;> simp_all [Value.isNull]

end Cell

/-! ## Order -/

/-- How texts compare: by bytes, without regard to the case of ASCII letters, or without regard to
blanks at the end. -/
inductive Collation where
  | binary | noCase | rightTrim
deriving DecidableEq, Inhabited, Repr

/-- A byte, an upper case ASCII letter turned to lower case. -/
def lowerByte (b : UInt8) : UInt8 := if 0x41 ≤ b && b ≤ 0x5A then b + 32 else b

namespace Collation

def compareBytes : List UInt8 → List UInt8 → Ordering := List.compareLex compare

/-- What a collation compares of a text. -/
def key : Collation → List UInt8 → List UInt8
  | binary, s => s
  | noCase, s => s.map lowerByte
  | rightTrim, s => (s.reverse.dropWhile (· == 0x20)).reverse

def compare (c : Collation) (s t : List UInt8) : Ordering := compareBytes (c.key s) (c.key t)

end Collation

namespace Cell

/-- The place of the storage class in the order of all cells; integers and reals share one. -/
def rank : Cell → Nat
  | null => 0
  | integer _ => 1
  | real _ => 1
  | text _ => 2
  | blob _ => 3

/-- The order of all cells: nulls, numbers, texts, blobs. -/
def order (c : Collation) : Cell → Cell → Ordering
  | integer a, integer b => compare a.toInt b.toInt
  | integer a, real y => Binary64.compareInt a.toInt y
  | real x, integer b => (Binary64.compareInt b.toInt x).swap
  | real x, real y => Binary64.compareReal x y
  | text s, text t => c.compare s t
  | blob s, blob t => Collation.compareBytes s t
  | a, b => compare a.rank b.rank

/-- Equality in the order, under which nulls are equal. -/
def sameAs (c : Collation) (a b : Cell) : Bool := a.order c b == .eq

example : order .binary (integer 2) (real (Binary64.ofRatio false 5 2)) = .lt := by decide +kernel
example : order .noCase (ofText "ABC") (ofText "abc") = .eq := by decide +kernel
example : order .binary (ofText "10") (integer 9) = .gt := by decide +kernel

end Cell

end GraphStore.Sqlite
