import GraphStore.Statement.Insert

/-!
# Updates

`Edit.update` describes the update of the row of the record being edited: all columns that are
neither keys nor fixed, or those that are listed. The auto timestamp is always written.
-/

set_option autoImplicit false

namespace GraphStore

/-- A column that an update may write. -/
def ColumnDef.isWritable (c : ColumnDef) : Bool := !c.isKey && c.updatable

/-- Every listed property is a column that an update may write. -/
def EntityMap.checkFields (map : EntityMap) : List String → Except Error Unit
  | [] => .ok ()
  | field :: rest => do
      let column ← map.column field
      if !column.isWritable then throw (.of (.notUpdatable field map.table.name))
      map.checkFields rest

namespace Edit

/-- The update of the record, restricted to `fields` when they are given. -/
def update (map : EntityMap) (fields : Option (List String)) : Edit UpdateStatement := do
  if ← ofExcept (map.hasEmptyKey (← record)) then throw (.of (.keylessUpdate map.table.name))
  ofExcept (map.checkFields (fields.getD []))
  let stamped ← stamp map
  let columns := map.columns.filter fun c =>
    c.isWritable && match fields with
      | none => true
      | some fields => fields.contains c.property || stamped == some c.property
  let (set, context) ← ofExcept (map.assignments (← record) columns { qualify := false })
  if set.isEmpty then throw (.of (.nothingToUpdate map.table.name))
  let (filter, _) ← ofExcept (map.keyFilter (← record) context)
  return { table := map.table, set, filter }

end Edit

end GraphStore
