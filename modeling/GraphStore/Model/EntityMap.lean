import GraphStore.Model.Declaration

/-!
# Entity maps

An entity map is a declaration that has been found to fit its record type, with the key columns
and the columns of special role indexed. It is also how a record is identified: by the value of
its key, or by the text of all key columns when there are several.
-/

set_option autoImplicit false

namespace GraphStore

/-- The name of a table, in a schema unless that is empty. -/
structure TableRef where
  schema : String
  name : String
deriving DecidableEq, Repr

/-- A mapped column. `value` is what the field holds in a new record; its type is the type of
the column. -/
structure ColumnDef where
  property : String
  name : String
  value : Value
  nullable : Bool
  role : KeyRole
  updatable : Bool
  selectable : Bool
deriving DecidableEq, Repr

namespace ColumnDef

def isKey (c : ColumnDef) : Bool := c.role != .none

def isGenerated (c : ColumnDef) : Bool := c.role == .generated

/-- A key that the database counts up itself. -/
def isCounted (c : ColumnDef) : Bool :=
  c.isGenerated && (match c.value with | .int32 _ => true | _ => false)

end ColumnDef

/-- A mapped relation. Its target is a name: whether that type can be mapped is found out when
it is needed. -/
structure RelationDef where
  property : String
  kind : RelationKind
  target : String
  localKey : String
  foreignKey : String
  nullable : Bool
deriving DecidableEq, Repr

/-- How a record type is stored. `keys` and the three roles are positions in `columns`. -/
structure EntityMap where
  type : String
  table : TableRef
  columns : List ColumnDef
  keys : List Nat
  generatedKey : Option Nat
  softDelete : Option Nat
  autoTimestamp : Option Nat
  relations : List RelationDef
  prototype : Record
deriving Repr

namespace EntityMap

/-! ## Looking up -/

def column? (map : EntityMap) (property : String) : Option ColumnDef :=
  map.columns.find? (·.property == property)

def relation? (map : EntityMap) (property : String) : Option RelationDef :=
  map.relations.find? (·.property == property)

/-- The column of a property, which must exist. -/
def column (map : EntityMap) (property : String) : Except Error ColumnDef :=
  orFail (map.column? property) (.unknownColumn map.table.name property)

/-- The relation of a property, which must exist. -/
def relation (map : EntityMap) (property : String) : Except Error RelationDef :=
  orFail (map.relation? property) (.unknownRelation map.table.name property)

/-- The key columns in order of declaration. -/
def keyColumns (map : EntityMap) : List ColumnDef := map.keys.filterMap (map.columns[·]?)

def generatedKeyColumn? (map : EntityMap) : Option ColumnDef :=
  map.generatedKey.bind (map.columns[·]?)

def softDeleteColumn? (map : EntityMap) : Option ColumnDef :=
  map.softDelete.bind (map.columns[·]?)

def autoTimestampColumn? (map : EntityMap) : Option ColumnDef :=
  map.autoTimestamp.bind (map.columns[·]?)

/-- The relations of one kind, in order of declaration. -/
def relationsOf (map : EntityMap) (kind : RelationKind) : List RelationDef :=
  map.relations.filter (·.kind == kind)

/-! ## Reading records -/

/-- The value of a mapped property. -/
def read (map : EntityMap) (record : Record) (property : String) : Except Error Value :=
  orFail (record.field? property) (.unmappedProperty map.table.name property)

/-! ## Identity -/

def requireKeys (map : EntityMap) : Except Error Unit :=
  if map.keys.isEmpty then fail (.noKey map.table.name) else .ok ()

/-- One `column=value;` for every column. -/
def keyPairs (map : EntityMap) (record : Record) : List ColumnDef → Except Error String
  | [] => .ok ""
  | c :: rest => do
      let v ← map.read record c.property
      let tail ← keyPairs map record rest
      return c.name ++ "=" ++ v.text ++ ";" ++ tail

/-- The identity of a record: the value of a single key, otherwise the pairs of all key columns
as one text. -/
def compositeKey (map : EntityMap) (record : Record) : Except Error Value := do
  map.requireKeys
  match map.keyColumns with
  | [c] => map.read record c.property
  | cs => return .varchar (some (← map.keyPairs record cs))

/-- The identity as text; it tells rows apart. -/
def keyString (map : EntityMap) (record : Record) : Except Error String :=
  (map.compositeKey record).map Value.text

/-- Whether one of the columns holds an empty key. -/
def anyEmptyKey (map : EntityMap) (record : Record) : List ColumnDef → Except Error Bool
  | [] => .ok false
  | c :: rest => do
      if (← map.read record c.property).isEmptyKey then return true
      else anyEmptyKey map record rest

/-- Whether a key of the record is empty, so that it has not been stored. -/
def hasEmptyKey (map : EntityMap) (record : Record) : Except Error Bool := do
  map.requireKeys
  map.anyEmptyKey record map.keyColumns

end EntityMap

end GraphStore
