import GraphStore.Model.EntityMap

/-!
# Deriving entity maps

`EntityType.derive` checks a declaration against the prototype of its record type and builds the
map. Columns are checked one after another, then the keys as a whole, then the relations; the
first fault found is reported. A model is a collection of entity types in which relations find
their targets.
-/

set_option autoImplicit false

namespace GraphStore

/-- A record type with its declaration; the prototype is a new record. -/
structure EntityType where
  prototype : Record
  declaration : Declaration
deriving Repr

namespace EntityType

def name (e : EntityType) : String := e.prototype.type

/-! ## Columns -/

/-- The columns mapped so far and the positions of the roles found among them. -/
structure Draft where
  columns : List ColumnDef := []
  generatedKey : Option Nat := none
  softDelete : Option Nat := none
  autoTimestamp : Option Nat := none
deriving Repr

/-- The position for a role that nothing else has taken. -/
def claimRole (taken : Option Nat) (position : Nat) (marker : Marker) (table : String) :
    Except DeclarationFault (Option Nat) :=
  if taken.isSome then .error (.repeatedMarker table marker) else .ok (some position)

/-- A generated key is an identifier, or an integer that a new record does not have yet. -/
def checkGenerated (property : String) (v : Value) : Except DeclarationFault Unit :=
  match v with
  | .uuid _ => .ok ()
  | .int32 none => .ok ()
  | .int32 (some _) => .error (.presentGeneratedKey property)
  | v => .error (.unfitGeneratedKey property v)

def checkSoftDelete (property : String) (v : Value) : Except DeclarationFault Unit :=
  match v with
  | .boolean _ => .ok ()
  | _ => .error (.unfitSoftDelete property)

def checkTimestamp (property : String) (v : Value) : Except DeclarationFault Unit :=
  match v with
  | .timestamp _ => .ok ()
  | _ => .error (.unfitTimestamp property)

/-- The next column added to the draft. -/
def addColumn (table : String) (prototype : Record) (draft : Draft) (d : ColumnDeclaration) :
    Except DeclarationFault Draft := do
  let position := draft.columns.length
  if draft.columns.any (·.property == d.property) then throw (.declaredTwice d.property)
  let value ← match prototype.field? d.property with
    | some v => pure v
    | none => throw (.notAField d.property)
  let generatedKey ← if d.role = .generated then do
      checkGenerated d.property value
      claimRole draft.generatedKey position .generatedKey table
    else pure draft.generatedKey
  let softDelete ← if d.softDelete then do
      checkSoftDelete d.property value
      claimRole draft.softDelete position .softDelete table
    else pure draft.softDelete
  let autoTimestamp ← if d.autoTimestamp then do
      checkTimestamp d.property value
      claimRole draft.autoTimestamp position .autoTimestamp table
    else pure draft.autoTimestamp
  let column : ColumnDef :=
    { property := d.property
      name := d.name.getD d.property
      value
      nullable := d.role = .none && (d.nullable || value.isNull)
      role := d.role
      updatable := d.updatable
      selectable := d.selectable }
  return { columns := draft.columns ++ [column], generatedKey, softDelete, autoTimestamp }

/-! ## Keys -/

/-- The positions of the key columns. -/
def keyPositions (columns : List ColumnDef) : List Nat :=
  (columns.zipIdx.filter (·.1.isKey)).map (·.2)

/-- A key counted by the database stands alone, and every key can be selected. -/
def checkKeys (columns : List ColumnDef) : Except DeclarationFault Unit := do
  if 1 < (keyPositions columns).length then
    match columns.find? (·.isCounted) with
    | some c => throw (.generatedInComposite c.property)
    | none => pure ()
  match columns.find? (fun c => c.isKey && !c.selectable) with
  | some c => throw (.hiddenKey c.property)
  | none => pure ()

/-! ## Relations -/

/-- Whether the prototype has a slot of this kind under this name. -/
def hasSlot (prototype : Record) (property : String) (kind : RelationKind) : Bool :=
  match prototype.slot? property with
  | some s => s.kind == kind
  | none => false

/-- The next relation added to those already mapped. -/
def addRelation (prototype : Record) (columns : List ColumnDef) (relations : List RelationDef)
    (d : RelationDeclaration) : Except DeclarationFault (List RelationDef) := do
  if relations.any (·.property == d.property) || columns.any (·.property == d.property) then
    throw (.declaredTwice d.property)
  if !hasSlot prototype d.property d.kind then throw (.notASlot d.property d.kind)
  if !columns.any (·.property == d.localKey) then
    throw (.unknownLocalKey d.property d.localKey)
  let relation : RelationDef :=
    { property := d.property, kind := d.kind, target := d.target, localKey := d.localKey,
      foreignKey := d.foreignKey, nullable := d.nullable }
  return relations ++ [relation]

/-! ## The map -/

/-- The map of an entity type whose declaration fits its prototype. -/
def derive (e : EntityType) : Except DeclarationFault EntityMap := do
  let table := e.declaration.table.getD (Text.shortTypeName e.name)
  let draft ← e.declaration.columns.foldlM (addColumn table e.prototype) {}
  checkKeys draft.columns
  let relations ← e.declaration.relations.foldlM (addRelation e.prototype draft.columns) []
  return {
    type := e.name
    table := ⟨e.declaration.schema, table⟩
    columns := draft.columns
    keys := keyPositions draft.columns
    generatedKey := draft.generatedKey
    softDelete := draft.softDelete
    autoTimestamp := draft.autoTimestamp
    relations
    prototype := e.prototype }

end EntityType

/-- The entity types that know each other by name. -/
structure Model where
  types : List EntityType
deriving Repr

namespace Model

def find? (m : Model) (type : String) : Option EntityType :=
  m.types.find? (·.name == type)

/-- The map of a type of the model. -/
def entityMap (m : Model) (type : String) : Except Error EntityMap :=
  match m.find? type with
  | none => fail (.unknownType type)
  | some e =>
      match e.derive with
      | .ok map => .ok map
      | .error fault => .error ((Error.of (.declaration fault)).inside (.mapping type))

/-- The map of the target of a relation. -/
def target (m : Model) (r : RelationDef) : Except Error EntityMap := m.entityMap r.target

end Model

end GraphStore
