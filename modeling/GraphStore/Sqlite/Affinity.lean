import GraphStore.Sqlite.Numeral

/-!
# Affinities

A column takes any cell, but prefers a kind by its declared type: the affinity of the column
decides what a cell becomes when it is stored. The same affinities say what a cast gives and how
the two sides of a comparison are brought together.
-/

set_option autoImplicit false

namespace GraphStore.Sqlite

/-- What kind of cells a column prefers. -/
inductive Affinity where
  | blob | text | numeric | integer | real
deriving DecidableEq, Inhabited, Repr

namespace Affinity

/-- Whether one text occurs in another. -/
def occursIn (piece : List Char) : List Char → Bool
  | [] => piece.isEmpty
  | c :: rest => piece.isPrefixOf (c :: rest) || occursIn piece rest

/-- The affinity of a declared type, by the first of these pieces found in it. -/
def ofType (declared : String) : Affinity :=
  let s := declared.toList.map Char.toLower
  let has (piece : String) : Bool := occursIn piece.toList s
  if has "int" then integer
  else if has "char" || has "clob" || has "text" then text
  else if has "blob" || s.isEmpty then blob
  else if has "real" || has "floa" || has "doub" then real
  else numeric

def isNumeric : Affinity → Bool
  | numeric => true
  | integer => true
  | real => true
  | _ => false

/-- The integer that a real number is, or the number. -/
def whole (x : Binary64) : Cell := x.exactInt64?.elim (.real x) .integer

/-- A cell turned to a number where it is the text of one, whole numbers to integers. -/
def toNumeric : Cell → Cell
  | .text s =>
      match wholeNumber? s with
      | some (.real x) => whole x
      | some c => c
      | none => .text s
  | .real x => whole x
  | c => c

/-- A cell as a column of this affinity stores it. -/
def store (a : Affinity) (c : Cell) : Cell :=
  match a, c with
  | blob, c => c
  | text, .integer n => .text (Cell.bytes (.integer n))
  | text, .real x => .text (Cell.bytes (.real x))
  | text, c => c
  | numeric, c => toNumeric c
  | integer, c => toNumeric c
  | real, c =>
      match toNumeric c with
      | .integer n => .real (Binary64.ofInt n.toInt)
      | c => c

/-- A cell forced into this affinity. -/
def cast (a : Affinity) (c : Cell) : Cell :=
  match a, c with
  | _, .null => .null
  | blob, c => .blob c.bytes
  | text, c => .text c.bytes
  | integer, c => .integer c.toInteger
  | real, c => .real c.toReal
  | numeric, .integer n => .integer n
  | numeric, .real x => .real x
  | numeric, c =>
      match c.number with
      | .real x => whole x
      | n => n

/-! ## Comparisons -/

/-- The affinity under which two expressions are compared, each having one when it comes from a
column or a cast: between two of these a numeric one wins, otherwise the only one counts. -/
def ofBoth : Option Affinity → Option Affinity → Option Affinity
  | some a, some b => if a.isNumeric || b.isNumeric then some numeric else none
  | some a, none => some a
  | none, b => b

/-- A cell as it is compared under an affinity. -/
def compared (a : Option Affinity) (c : Cell) : Cell :=
  match a, c with
  | some text, c => text.store c
  | some blob, c => c
  | some _, .text s => (wholeNumber? s).getD (.text s)
  | _, c => c

example : ofType "VARCHAR(255)" = text ∧ ofType "" = blob ∧ ofType "FLOAT" = real ∧
    ofType "DATETIME" = numeric ∧ ofType "BIGINT" = integer := by decide +kernel

end Affinity

end GraphStore.Sqlite
