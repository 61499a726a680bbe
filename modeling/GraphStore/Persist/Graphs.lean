import GraphStore.Record.Attach
import GraphStore.Sql.Query
import GraphStore.Statement.Basic

/-!
# Graphs from joined rows

A joined row shows one record of every segment. `Model.graphs` puts the records of all rows
together: one root for each identity, in the order in which they first appear, and in its slots
the records that its rows show, each identity once. A segment whose key cells are empty shows no
record, as in the row of an outer join without a partner.
-/

set_option autoImplicit false

namespace GraphStore

/-- Whether the row has a value for every key of the segment. -/
def Segment.isPresent (s : Segment) (row : Row) : Bool :=
  s.map.keyColumns.all fun c =>
    match (s.position? c.property).bind (row.values[·]?) with
    | some v => !v.isEmptyKey
    | none => false

/-- Assigns the cells from place `i` on to the properties; cells beyond the end of a short row
leave their property as it is. -/
def Segment.readCells (s : Segment) (row : Row) (record : Record) :
    Nat → List String → Except Error Record
  | _, [] => .ok record
  | i, property :: rest =>
      match row.values[i]? with
      | none => s.readCells row record (i + 1) rest
      | some v => do
          let record ← framed (.readingColumn i s.map.table.name) (record.setField property v)
          s.readCells row record (i + 1) rest

/-- The record that a segment shows in a row. -/
def Segment.readRow (s : Segment) (row : Row) : Except Error (Option Record) :=
  if s.isPresent row then
    (s.readCells row s.map.prototype (s.start + 1) s.properties).map some
  else .ok none

/-- What tells a record apart: its key or, without keys, the number of its row. -/
def EntityMap.identity (map : EntityMap) (record : Record) (rowNumber : Nat) :
    Except Error String :=
  if map.keys.isEmpty then .ok ("#" ++ toString rowNumber) else map.keyString record

/-- A root with its identity, and the records attached to it, by segment and identity. -/
structure Gathered where
  key : String
  root : Record
  attached : List (Nat × String)
deriving Repr

/-- The roots gathered so far, with the one of identity `key` changed. -/
def updateRoot (change : Gathered → Except Error Gathered) (key : String) :
    List Gathered → Except Error (List Gathered)
  | [] => .ok []
  | g :: rest =>
      if g.key = key then (change g).map (· :: rest)
      else (updateRoot change key rest).map (g :: ·)

namespace Model

/-- Attaches what the segment number `i` shows in a row, unless the root has it already. -/
def attachSegment (m : Model) (row : Row) (rowNumber : Nat) (g : Gathered) (i : Nat)
    (s : Segment) : Except Error Gathered := do
  match s.relation with
  | none => return g
  | some relation =>
      match ← s.readRow row with
      | none => return g
      | some child => do
          let key ← s.map.identity child rowNumber
          if g.attached.contains (i, key) then return g
          let root ← m.attach g.root relation.property child
          return { g with root, attached := (i, key) :: g.attached }

/-- Attaches what all segments from number `i` on show in a row. -/
def attachSegments (m : Model) (row : Row) (rowNumber : Nat) :
    Nat → List Segment → Gathered → Except Error Gathered
  | _, [], g => .ok g
  | i, s :: rest, g => do
      let g ← m.attachSegment row rowNumber g i s
      m.attachSegments row rowNumber (i + 1) rest g

/-- Adds one row to the roots gathered so far. -/
def gatherRow (m : Model) (root : Segment) (related : List Segment) (gathered : List Gathered)
    (row : Row) (rowNumber : Nat) : Except Error (List Gathered) := do
  match ← root.readRow row with
  | none => return gathered
  | some record => do
      let key ← root.map.identity record rowNumber
      let gathered :=
        if gathered.any (·.key == key) then gathered
        else gathered ++ [{ key, root := record, attached := [] }]
      updateRoot (m.attachSegments row rowNumber 0 related) key gathered

/-- Adds the rows from number `n` on. -/
def gatherRows (m : Model) (root : Segment) (related : List Segment) :
    Nat → List Row → List Gathered → Except Error (List Gathered)
  | _, [], gathered => .ok gathered
  | n, row :: rest, gathered => do
      let gathered ← m.gatherRow root related gathered row n
      m.gatherRows root related (n + 1) rest gathered

/-- The graphs that the rows of a joined select show. -/
def graphs (m : Model) (segments : List Segment) (rows : List Row) :
    Except Error (List Record) :=
  match segments with
  | [] => .ok []
  | root :: related => (m.gatherRows root related 0 rows []).map fun gs => gs.map (·.root)

end Model

end GraphStore
