import GraphStore.Model.Derivation
import GraphStore.Sql.Fragment

/-!
# Property paths

A path is the name of a property of an entity, or of a relation and a property of its target,
joined by a dot. Resolving it finds the mapped column.
-/

set_option autoImplicit false

namespace GraphStore

/-- The column a path leads to, and how a fragment mentions it. -/
structure ResolvedPath where
  column : ColumnDef
  token : ColumnToken
deriving DecidableEq, Repr

namespace Model

/-- The column of a path from the entity of `map`. -/
def resolve (m : Model) (map : EntityMap) (path : String) : Except Error ResolvedPath :=
  match Text.pathSegments path with
  | [property] => do
      let column ← map.column property
      return ⟨column, ⟨none, map.table.name, column.name⟩⟩
  | [name, property] => do
      let relation ← map.relation name
      let target ← m.target relation
      let column ← target.column property
      return ⟨column, ⟨some relation.property, target.table.name, column.name⟩⟩
  | _ => fail (.nestedPath path)

end Model

end GraphStore
