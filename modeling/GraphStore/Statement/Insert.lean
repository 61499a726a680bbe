import GraphStore.Record.Editing
import GraphStore.Statement.Filter

/-!
# Inserts

`Edit.insert` describes the insertion of the record being edited. A record whose key is present
has been stored already and is not inserted again unless that is forced. An empty identifier key
is drawn here; an empty integer key is left to the database and reported as generated.
-/

set_option autoImplicit false

namespace GraphStore

/-- Assigns the values of a record to columns, in order. -/
def EntityMap.assignments (map : EntityMap) (record : Record) :
    List ColumnDef → Context → Except Error (List Assignment × Context)
  | [], context => .ok ([], context)
  | column :: rest, context => do
      let v ← map.read record column.property
      let (assignment, context) := assign column v context
      let (others, context) ← assignments map record rest context
      return (assignment :: others, context)

namespace Edit

/-- Gives the record a generated key if it needs one: an identifier is assigned to it, any other
key is left to the database and described. -/
def provideKey (map : EntityMap) : Edit (Option GeneratedKey) :=
  match map.generatedKeyColumn? with
  | none => pure none
  | some column => do
      let v ← ofExcept (map.read (← record) column.property)
      if !v.isEmptyKey then return none
      match v with
      | .uuid _ => do
          let u ← freshUuid
          assignField column.property (.uuid (some u))
          return none
      | _ => return some ⟨column.property, column.name⟩

/-- Whether the record counts as stored: its type has keys and none of them is empty. -/
def isStored (map : EntityMap) : Edit Bool := do
  if map.keys.isEmpty then return false
  return !(← ofExcept (map.hasEmptyKey (← record)))

/-- The insertion of the record, or nothing when it is stored already. -/
def insert (map : EntityMap) (forced : Bool) : Edit (Option InsertStatement) := do
  if (← isStored map) && !forced then return none
  let generatedKey ← provideKey map
  let _ ← stamp map
  let columns := map.columns.filter fun c =>
    !(generatedKey.any (·.property == c.property))
  let (values, _) ← ofExcept (map.assignments (← record) columns { qualify := false })
  return some { table := map.table, values, generatedKey }

end Edit

end GraphStore
