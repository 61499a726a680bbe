import GraphStore.Statement.Update

/-!
# Deletions

Rows are removed from tables without a mark of deletion; in tables that have one they are marked,
and stamped with the time. Deletions concern one record, the rows on which a predicate holds, or
the rows of a collection that are no longer in it.
-/

set_option autoImplicit false

namespace GraphStore

/-- Removes or marks the rows under `filter`. The parameter names up to `context` are taken. -/
def removeRows (map : EntityMap) (filter : Fragment) (context : Context) (supply : Supply) :
    Statement × Supply :=
  match map.softDeleteColumn? with
  | none => (.delete ⟨map.table, filter⟩, supply)
  | some flag =>
      let (mark, context) := assign flag (.boolean (some true)) context
      match map.autoTimestampColumn? with
      | none => (.update ⟨map.table, [mark], filter⟩, supply)
      | some column =>
          let (time, supply) := supply.takeTime
          let (stamp, _) := assign column (.timestamp (some time)) context
          (.update ⟨map.table, [mark, stamp], filter⟩, supply)

namespace Edit

/-- Assigns to the record what an update assigns to its row. -/
def follow (map : EntityMap) : List Assignment → Edit Unit
  | [] => pure ()
  | a :: rest => do
      match map.columns.find? (·.name == a.column) with
      | some column => assignField column.property a.param.value
      | none => pure ()
      follow map rest

/-- Removes or marks the rows under `filter`. -/
def remove (map : EntityMap) (filter : Fragment) (context : Context) : Edit Statement := fun b =>
  let (statement, supply) := removeRows map filter context b.supply
  .ok statement { b with supply }

/-- The deletion of the record by its key. A record that is only marked as deleted carries the
mark itself. -/
def delete (map : EntityMap) : Edit Statement := do
  if ← ofExcept (map.hasEmptyKey (← record)) then throw (.of (.keylessDelete map.table.name))
  let (filter, context) ← ofExcept (map.keyFilter (← record) { qualify := false })
  let statement ← remove map filter context
  match statement with
  | .update s => follow map s.set
  | _ => pure ()
  return statement

end Edit

namespace Model

/-- The deletion of every row on which `p` holds. -/
def deleteWhere (m : Model) (map : EntityMap) (p : Predicate) (supply : Supply) :
    Except Error (Statement × Supply) := do
  let (filter, context) ← m.compileLocal map p { qualify := false }
  return removeRows map filter context supply

/-- The values of one property in all records. -/
def readEach (map : EntityMap) (property : String) : List Record → Except Error (List Value)
  | [] => .ok []
  | r :: rest => do
      let v ← map.read r property
      return v :: (← readEach map property rest)

/-- One condition for every record: its key is not the key of the row. -/
def otherThan (map : EntityMap) : List Record → Context → Except Error (Fragment × Context)
  | [], context => .ok (.empty, context)
  | r :: rest, context => do
      let (key, context) ← map.keyFilter r context
      let (others, context) ← otherThan map rest context
      return (.ofText " AND NOT (" ++ key ++ .ofText ")" ++ others, context)

/-- The key is none of the keys of the records: a list for a single key, a condition for every
record otherwise. -/
def notAmong (map : EntityMap) (keep : List Record) (context : Context) :
    Except Error (Fragment × Context) :=
  match map.keyColumns with
  | [column] => do
      if keep.isEmpty then return (.empty, context)
      let values ← readEach map column.property keep
      let (params, context) := bindEach column.name values context
      return (.ofText " AND " ++ .ofColumn ⟨none, map.table.name, column.name⟩ ++
        .ofText " NOT IN (" ++ Fragment.joined ", " params ++ .ofText ")", context)
  | _ => otherThan map keep context

/-- The deletion of the rows of a collection that are not among `keep`. -/
def deleteOrphans (m : Model) (relation : RelationDef) (owner : Value) (keep : List Record)
    (supply : Supply) : Except Error (Statement × Supply) := do
  if relation.kind ≠ .oneToMany then throw (.of (.notACollection relation.property))
  let target ← m.target relation
  target.requireKeys
  let foreign ← target.column relation.foreignKey
  let (own, context) := equalTest target.table.name foreign owner { qualify := false }
  let (kept, context) ← notAmong target keep context
  return removeRows target (own ++ kept) context supply

end Model

end GraphStore
