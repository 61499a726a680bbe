import GraphStore.Number.Binary64
import GraphStore.Value.Timestamp
import GraphStore.Value.Uuid

/-!
# Values

A value is what moves between records, statements and connections. Nulls are typed: an absent
integer still says that it is an integer, which is how the type of a column is known from a
record that holds nothing yet.

Equality of values is `Value.same`, not structural equality: all nulls are the same, the two
integer widths compare by number, and floating point numbers compare as numbers.
-/

set_option autoImplicit false

namespace GraphStore

/-- A dynamically typed value; `none` inside a constructor is the null of that type. -/
inductive Value where
  | null
  | boolean (v : Option Bool)
  | int32 (v : Option Int32)
  | int64 (v : Option Int64)
  | float64 (v : Option Binary64)
  | varchar (v : Option String)
  | blob (v : Option (List UInt8))
  | timestamp (v : Option Timestamp)
  | uuid (v : Option Uuid)
deriving DecidableEq, Repr, Inhabited

namespace Value

/-- No content, typed or not. -/
def isNull : Value → Bool
  | null => true
  | boolean v => v.isNone
  | int32 v => v.isNone
  | int64 v => v.isNone
  | float64 v => v.isNone
  | varchar v => v.isNone
  | blob v => v.isNone
  | timestamp v => v.isNone
  | uuid v => v.isNone

/-- Equality of contents; nulls of all types are the same, NaN is not the same as itself. -/
def same : Value → Value → Bool
  | boolean (some a), boolean (some b) => a == b
  | int32 (some a), int32 (some b) => a == b
  | int64 (some a), int64 (some b) => a == b
  | float64 (some a), float64 (some b) => a.same b
  | varchar (some a), varchar (some b) => a == b
  | blob (some a), blob (some b) => a == b
  | timestamp (some a), timestamp (some b) => a == b
  | uuid (some a), uuid (some b) => a == b
  | int32 (some a), int64 (some b) => a.toInt == b.toInt
  | int64 (some a), int32 (some b) => a.toInt == b.toInt
  | a, b => a.isNull && b.isNull

/-- Equality of lists of values, place by place. -/
def sameAll (as bs : List Value) : Bool :=
  as.length == bs.length && (as.zip bs).all fun p => p.1.same p.2

/-! ## Empty keys -/

/-- Whether a value cannot be the key of a stored row: a null, an empty text or blob, or the nil
identifier, as such or as text. -/
def isEmptyKey (v : Value) : Bool :=
  match v with
  | varchar (some s) => s.isEmpty || (Uuid.parse? s).any Uuid.isNil
  | uuid (some u) => u.isNil
  | blob (some b) => b.isEmpty
  | v => v.isNull

end Value

end GraphStore
