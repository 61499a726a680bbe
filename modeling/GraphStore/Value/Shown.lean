import GraphStore.Number.DecimalText
import GraphStore.Text.Quoted
import GraphStore.Value.Basic

/-!
# Values as text

`Value.text` is the bare content, as it enters composite keys; a null is empty. `Value.label`
names the type as well, as values appear in messages.
-/

set_option autoImplicit false

namespace GraphStore

open Text

/-- Upper case hexadecimal digits of all bytes. -/
def upperHex (bytes : List UInt8) : String :=
  String.ofList ((bytesDigits bytes).map Char.toUpper)

namespace Value

/-- The content alone. -/
def text : Value → String
  | boolean (some v) => toString v
  | int32 (some v) => toString v.toInt
  | int64 (some v) => toString v.toInt
  | float64 (some v) => v.plainText
  | varchar (some v) => v
  | blob (some v) => upperHex v
  | timestamp (some v) => v.shownText
  | uuid (some v) => v.text
  | _ => ""

/-- The bytes as a bracketed list of numbers. -/
def byteList (bytes : List UInt8) : String :=
  "[" ++ String.intercalate ", " (bytes.map fun b => toString b.toNat) ++ "]"

/-- An optional content behind the name of its type. -/
def labelled {α : Type} (type : String) (write : α → String) : Option α → String
  | none => type ++ "(None)"
  | some a => type ++ "(Some(" ++ write a ++ "))"

/-- Type and content. -/
def label : Value → String
  | null => "Null"
  | boolean v => labelled "Boolean" toString v
  | int32 v => labelled "Int32" (fun n => toString n.toInt) v
  | int64 v => labelled "Int64" (fun n => toString n.toInt) v
  | float64 v => labelled "Float64" Binary64.labelledText v
  | varchar v => labelled "Varchar" quoted v
  | blob v => labelled "Blob" byteList v
  | timestamp v => labelled "Timestamp" Timestamp.shownText v
  | uuid v => labelled "Uuid" Uuid.text v

/-- Several labelled values in brackets. -/
def labelList (vs : List Value) : String :=
  "[" ++ String.intercalate ", " (vs.map label) ++ "]"

end Value

end GraphStore
