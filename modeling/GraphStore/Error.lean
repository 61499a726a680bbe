import GraphStore.Predicate.Basic
import GraphStore.Text.Truncate
import GraphStore.Value.FieldType

/-!
# Errors

An error is a cause and the frames around it, the outermost first. Causes and frames say what
happened in the terms of this library; their wording is in the `message` functions alone.
-/

set_option autoImplicit false

namespace GraphStore

open Text

/-! ## Faults in a declaration -/

/-- The roles that at most one column of an entity may have. -/
inductive Marker where
  | generatedKey | softDelete | autoTimestamp
deriving DecidableEq, Repr

/-- The two kinds of relation: to a single record by a key held here, or to all records that hold
a key of this one. -/
inductive RelationKind where
  | manyToOne | oneToMany
deriving DecidableEq, Repr

inductive DeclarationFault where
  | declaredTwice (property : String)
  | notAField (property : String)
  | unfitGeneratedKey (property : String) (value : Value)
  | presentGeneratedKey (property : String)
  | unfitSoftDelete (property : String)
  | unfitTimestamp (property : String)
  | repeatedMarker (table : String) (marker : Marker)
  | generatedInComposite (property : String)
  | hiddenKey (property : String)
  | notASlot (property : String) (kind : RelationKind)
  | unknownLocalKey (property localKey : String)
deriving DecidableEq, Repr

def Marker.text : Marker → String
  | generatedKey => "auto generated key"
  | softDelete => "soft delete"
  | autoTimestamp => "auto timestamp"

def RelationKind.slotText : RelationKind → String
  | manyToOne => "single reference"
  | oneToMany => "collection"

/-- A name between backquotes. -/
def ticked (name : String) : String := "`" ++ name ++ "`"

def DeclarationFault.message : DeclarationFault → String
  | declaredTwice p => "Property " ++ ticked p ++ " is declared twice"
  | notAField p => "Declared column " ++ ticked p ++ " is not a field of the record"
  | unfitGeneratedKey p v => "Auto generated key " ++ ticked p ++
      " must be a Uuid or an i32, found " ++ v.label
  | presentGeneratedKey p => "Auto generated i32 key " ++ ticked p ++ " must be an `Option<i32>`"
  | unfitSoftDelete p => "Soft delete column " ++ ticked p ++ " must be a bool"
  | unfitTimestamp p => "Auto timestamp column " ++ ticked p ++ " must be a PrimitiveDateTime"
  | repeatedMarker t m => "Table " ++ ticked t ++ " declares more than one " ++ m.text ++ " column"
  | generatedInComposite p => "Database generated key " ++ ticked p ++
      " cannot be part of a composite key"
  | hiddenKey p => "Key " ++ ticked p ++ " must be selectable"
  | notASlot p k => "Relation " ++ ticked p ++ " is not a " ++ k.slotText ++ " slot of the record"
  | unknownLocalKey p k => "Relation " ++ ticked p ++ " uses " ++ ticked k ++
      " as local key but it is not a declared column"

/-! ## Faults of conversion -/

def ConversionFault.message : ConversionFault → String
  | mismatch v t => "Cannot convert " ++ v.label ++ " to " ++ t.name
  | outOfRange n => "Value " ++ toString n.toInt ++ ": i64 is out of range for i32"
  | cannotBorrow v => "Cannot convert " ++ v.label ++
      " into a borrowed string, use String instead"
  | notUuidBytes => "<uuid error>"
  | notUuidText s => "Cannot parse " ++ ticked s ++ " as a uuid: <uuid error>"
  | notTimestampText s => "Cannot parse " ++ ticked s ++ " as a timestamp"

/-! ## Causes -/

/-- The two writes that must touch exactly one row. -/
inductive RowAction where
  | update | delete
deriving DecidableEq, Repr

def RowAction.text : RowAction → String
  | update => "update"
  | delete => "delete"

inductive Cause where
  -- types and records
  | unknownType (type : String)
  | declaration (fault : DeclarationFault)
  | conversion (fault : ConversionFault)
  | unmappedProperty (table property : String)
  | noProperty (type property : String)
  | noRelationSlot (type property : String)
  | wrongType (table type : String)
  | noKey (table : String)
  -- predicates
  | unknownColumn (table property : String)
  | unknownRelation (table relation : String)
  | nestedPath (path : String)
  | comparedWithNull (path : String) (op : CompareOp)
  | notAText (method path : String) (found : Value)
  | unexpectedArgument (method path : String) (argument : Argument)
  | unsupportedMethod (method path : String)
  -- statements
  | unsupportedDialect (name : String)
  | compositeKeyLookup (table : String)
  | filteredRelation (relation table : String)
  | includedTwice (relation : String)
  | notIncluded (relation : String)
  | keylessUpdate (table : String)
  | keylessDelete (table : String)
  | notUpdatable (property table : String)
  | nothingToUpdate (table : String)
  | notACollection (relation : String)
  -- persistence
  | unexpectedCount (action : RowAction) (table : String) (count : UInt64)
  | requiredRelation (relation table : String)
  | keyNotReturned (table : String)
  | nestedTooDeeply (table : String)
  -- connections
  | unexpectedScheme (scheme : String)
  | nulByte (position : Nat)
  | noStatement
  | severalStatements
  | unknownParameter (name : String)
  | reported (text : String)
deriving DecidableEq, Repr

def Cause.message : Cause → String
  | unknownType t => "Unknown entity type " ++ ticked t
  | declaration f => f.message
  | conversion f => f.message
  | unmappedProperty t p => "Record mapped to " ++ ticked t ++ " has no property " ++ ticked p
  | noProperty t p => ticked t ++ " has no property named " ++ ticked p
  | noRelationSlot t p => ticked t ++ " has no relation named " ++ ticked p
  | wrongType t type => "Record of table " ++ ticked t ++ " is not a " ++ type
  | noKey t => "Table " ++ ticked t ++ " does not declare a primary key"
  | unknownColumn t p => "Table " ++ ticked t ++ " has no column for property " ++ ticked p
  | unknownRelation t r => "Table " ++ ticked t ++ " has no relation named " ++ ticked r
  | nestedPath p => "Cannot resolve " ++ ticked p ++ ": only one degree of nesting is supported"
  | comparedWithNull p op => "Cannot compare " ++ ticked p ++ " with NULL using " ++ ticked op.sql
  | notAText m p v => "Method " ++ ticked m ++ " on " ++ ticked p ++
      " expects a string argument, found " ++ v.label
  | unexpectedArgument m p a => "Method " ++ ticked m ++ " on " ++ ticked p ++
      " received an unexpected argument " ++ a.label
  | unsupportedMethod m p => "Unsupported method " ++ ticked m ++ " on " ++ ticked p
  | unsupportedDialect n => "Unsupported dialect " ++ ticked n
  | compositeKeyLookup t => "Table " ++ ticked t ++
      " has a composite key and cannot be looked up by a single id"
  | filteredRelation r t => "Relation " ++ ticked r ++ " of " ++ ticked t ++
      " can be filtered only in a select including it"
  | includedTwice r => "Relation " ++ ticked r ++ " is included more than once"
  | notIncluded r => "Relation " ++ ticked r ++
      " must be included to be used in a filter or an ordering"
  | keylessUpdate t => "Cannot update a row of " ++ ticked t ++ " without a key"
  | keylessDelete t => "Cannot delete a row of " ++ ticked t ++ " without a key"
  | notUpdatable p t => "Property " ++ ticked p ++ " of " ++ ticked t ++ " is not updatable"
  | nothingToUpdate t => "Nothing to update in " ++ ticked t
  | notACollection r => "Relation " ++ ticked r ++ " is not a collection"
  | unexpectedCount a t n => "Expected to " ++ a.text ++ " exactly one row of " ++ ticked t ++
      ", " ++ toString n ++ " rows affected"
  | requiredRelation r t => "Required relation " ++ ticked r ++ " of " ++ ticked t ++ " is not set"
  | keyNotReturned t => "The insert into " ++ ticked t ++ " did not return the generated key"
  | nestedTooDeeply t => "The records below " ++ ticked t ++ " are nested too deeply"
  | unexpectedScheme s => "Expected sqlite connection url to start with " ++ ticked s
  | nulByte n => "nul byte found in provided data at position: " ++ toString n
  | noStatement => "The query does not contain any statement"
  | severalStatements => "Cannot run more than one statement at a time"
  | unknownParameter n => "The query has no parameter named " ++ ticked (":" ++ n)
  | reported s => s

/-! ## Frames -/

/-- What was being done when an error arose. -/
inductive Frame where
  | mapping (type : String)
  | assigning (property type : String)
  | executing (sql : String)
  | inserting (relation table : String)
  | insertingItem (index : Nat) (relation table : String)
  | saving (relation table : String)
  | savingItem (index : Nat) (relation table : String)
  | readingColumn (index : Nat) (table : String)
  | preparing (sql : String)
  | binding (parameter : String)
  | opening (url : String)
  | reported (text : String)
deriving DecidableEq, Repr

def Frame.message : Frame → String
  | mapping t => "While mapping entity " ++ ticked t
  | assigning p t => "While assigning property " ++ ticked p ++ " of " ++ ticked t
  | executing sql => "While executing the query:\n" ++ abridge sql
  | inserting r t => "While inserting " ++ ticked r ++ " referenced by " ++ ticked t
  | insertingItem i r t => "While inserting item " ++ toString i ++ " of " ++ ticked r ++ " in " ++
      ticked t
  | saving r t => "While saving " ++ ticked r ++ " referenced by " ++ ticked t
  | savingItem i r t => "While saving item " ++ toString i ++ " of " ++ ticked r ++ " in " ++
      ticked t
  | readingColumn i t => "While reading column " ++ toString i ++ " of the joined row into " ++
      ticked t
  | preparing sql => "While preparing the query:\n" ++ abridge sql
  | binding n => "Cannot bind parameter " ++ ticked (":" ++ n)
  | opening url => "While opening the database " ++ ticked url
  | reported s => s

/-! ## Errors -/

/-- A cause and the frames around it, the outermost first. -/
structure Error where
  frames : List Frame
  cause : Cause
deriving DecidableEq, Repr

namespace Error

/-- An error without frames. -/
def of (cause : Cause) : Error := ⟨[], cause⟩

/-- The error inside one more frame. -/
def inside (e : Error) (frame : Frame) : Error := { e with frames := frame :: e.frames }

/-- All frames and the cause, joined by colons. -/
def message (e : Error) : String :=
  String.intercalate ": " (e.frames.map Frame.message ++ [e.cause.message])

@[simp] theorem cause_inside (e : Error) (f : Frame) : (e.inside f).cause = e.cause := rfl

@[simp] theorem frames_inside (e : Error) (f : Frame) :
    (e.inside f).frames = f :: e.frames := rfl

end Error

/-- Fails with a cause. -/
def fail {α : Type} (cause : Cause) : Except Error α := .error (.of cause)

/-- An error of `x` gets a frame around it. -/
def framed {α : Type} (frame : Frame) (x : Except Error α) : Except Error α :=
  x.mapError (·.inside frame)

/-- The value, or an error with the cause. -/
def orFail {α : Type} (x : Option α) (cause : Cause) : Except Error α :=
  match x with
  | some a => .ok a
  | none => fail cause

end GraphStore
