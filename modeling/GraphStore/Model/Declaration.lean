import GraphStore.Record.Basic

/-!
# Declarations

How the fields and slots of a record correspond to a table: which fields are columns and under
which name, which of them are keys or have a special role, and which slots are relations. A
declaration says nothing about the record itself, so it can be wrong; whether it fits is decided
when an entity map is derived from it.
-/

set_option autoImplicit false

namespace GraphStore

/-- The part of a column in the primary key: none, an ordinary part, or a key that is generated
when a row is inserted. -/
inductive KeyRole where
  | none | key | generated
deriving DecidableEq, Repr

/-- A field that is a column. Without a `name` the column is named like the property. -/
structure ColumnDeclaration where
  property : String
  name : Option String := .none
  role : KeyRole := .none
  updatable : Bool := true
  selectable : Bool := true
  softDelete : Bool := false
  autoTimestamp : Bool := false
  nullable : Bool := false
deriving DecidableEq, Repr

/-- A slot that is a relation. For a single reference `localKey` is the property that holds the
key of the target's `foreignKey`; for a collection `foreignKey` is the property of the target
that holds the `localKey` of this entity. -/
structure RelationDeclaration where
  property : String
  kind : RelationKind
  target : String
  localKey : String
  foreignKey : String
  nullable : Bool := false
deriving DecidableEq, Repr

/-- The table of an entity. Without a `table` it is named like the type. -/
structure Declaration where
  table : Option String := .none
  schema : String := ""
  columns : List ColumnDeclaration := []
  relations : List RelationDeclaration := []
deriving DecidableEq, Repr

/-! ## Writing declarations -/

/-- A column named like its property and without a role. -/
def column (property : String) : ColumnDeclaration := { property }

/-- A part of the primary key. -/
def keyColumn (property : String) : ColumnDeclaration := { property, role := .key }

/-- A key generated on insert. -/
def generatedColumn (property : String) : ColumnDeclaration := { property, role := .generated }

/-- A reference to one `target`, by its key `foreignKey` held in `localKey`. -/
def manyToOne (property target localKey foreignKey : String) : RelationDeclaration :=
  { property, kind := .manyToOne, target, localKey, foreignKey }

/-- All `target` records whose `foreignKey` is the `localKey` of this entity. -/
def oneToMany (property target localKey foreignKey : String) : RelationDeclaration :=
  { property, kind := .oneToMany, target, localKey, foreignKey }

/-- The relation made optional. -/
def RelationDeclaration.orNone (r : RelationDeclaration) : RelationDeclaration :=
  { r with nullable := true }

end GraphStore
