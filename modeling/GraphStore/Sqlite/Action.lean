import GraphStore.Sqlite.Grammar.Command
import GraphStore.Sqlite.Write

/-!
# Actions

An action is a command that is ready to be carried out. What is wrong with the names of a command
shows here; what is wrong with rows shows when the action is carried out.
-/

set_option autoImplicit false

namespace GraphStore.Sqlite

inductive Action where
  | query (r : Relation)
  | write (w : Write)
  /-- A change of the schema, or nothing when it is done already. -/
  | define (change : Option (List Cell → Change Unit))
  | begin
  | finish (ending : Ending)
  | savepoint (name : String)
  | release (name : String)
  | rollbackTo (name : String)
  | nothing

namespace Database

/-! ## Definitions -/

/-- Changes the schema by a function of the database. -/
def defining (f : Database → Database) : Change Unit :=
  modify fun w => { w with database := f w.database }

/-- Checks the names in the rules of a new table. -/
def checkRules (d : Database) (t : Table) : Except Fault Unit := do
  let _ ← d.rulesOf t

/-- The type that a column of a selection is declared with. -/
def typeOf (a : Option Affinity) : String :=
  match a.getD .blob with
  | .text => "TEXT"
  | .numeric => "NUM"
  | .integer => "INT"
  | .real => "REAL"
  | .blob => ""

/-- A table with the columns of a selection. -/
def tableOf (name : String) (columns : List ColumnView) : Table :=
  let specs := (columns.zip (distinctNames (columns.map (·.name)))).map fun (c, name) =>
    ({ name, type := typeOf c.affinity, collation := c.collation.getD .binary } : ColumnSpec)
  let shown := specs.map fun c => if c.type.isEmpty then c.name else c.name ++ " " ++ c.type
  let short := specs.foldl (fun n c => n + c.name.length + 5) name.length < 50
  let text :=
    if short then "(" ++ String.intercalate "," shown ++ ")"
    else "(\n  " ++ String.intercalate ",\n  " shown ++ "\n)"
  { name, columns := specs, written := "CREATE TABLE " ++ name ++ text }

/-- Numbered rows of cells. -/
def numbered (t : Table) (rows : List (List Cell)) : List StoredRow :=
  (rows.zipIdx 1).map fun (cells, n) =>
    ⟨Int64.ofNat n, cells.zipIdx.map fun (c, i) => (t.affinity i).store c⟩

/-- A new table with the rows of a selection. -/
def createTableAs (d : Database) (draft : Option Table) (s : Selection) :
    Except Fault (Option (List Cell → Change Unit)) := do
  match draft with
  | none => return none
  | some t => do
      let relation ← Context.relation { database := d } s
      let t := tableOf t.name relation.columns
      return some fun params => do
        let rows ← Change.ofExcept (relation.rows { world := ← get, params }).all
        defining (·.createTable { t with rows := numbered t rows })

/-! ## Dropping -/

/-- Removes a table with its rows. Rows that others could refer to count as changed; none may be left without its
parent. -/
def dropRows (t : Table) : Change Unit := do
  let d := (← get).database
  if !(d.referring t.name).isEmpty then
    modify fun w => { w with totalChanges := w.totalChanges + t.rows.length }
  defining (·.dropTable t.name)
  let sequences ← Change.table sequenceTable.name
  Change.setTable { sequences with
    rows := sequences.rows.filter fun r => r.cells.head? != some (.ofText t.name) }

/-- Looks up what is to be dropped, if it is there. -/
def drop (d : Database) (kind : EntryKind) (lenient : Bool) (name : TableName) :
    Except Fault (Option (Change Unit)) := do
  let n := name.name
  let known := name.schema.all (sameName "main")
  let absent : Except Fault (Option (Change Unit)) :=
    if lenient then .ok none else .error (.missing kind name.text)
  if !known then return ← absent
  match kind with
  | .index =>
      match d.index? n with
      | none => absent
      | some i =>
          if i.written.isNone then throw .boundIndex
          return some (defining (·.dropIndex i.name))
  | _ =>
      if isSchemaTable n then throw (.notDroppable d.schemaTable.name)
      match d.table? n, d.view? n with
      | none, none => absent
      | some t, _ =>
          if isReserved t.name then throw (.notDroppable t.name)
          if kind = .view then throw (.dropAs .table t.name)
          return some (dropRows t)
      | none, some v =>
          if kind = .table then throw (.dropAs .view v.name)
          return some (defining (·.dropView v.name))

/-- A new index. Its key must not be taken twice by the rows there are. -/
def createIndex (i : Index) (key : Option Key) : Change Unit := do
  if let some k := key then
    let t ← Change.table i.table
    for r in t.rows do
      if (t.clash? k (some r.rowid) r.cells).isSome then
        throw { fault := .uniqueFailed (k.columns.map fun c =>
          t.name ++ "." ++ (t.column c).name) }
    Change.setTable { t with keys := k :: t.keys }
  defining (·.add (.index i))

end Database

/-- The settings that can be asked for. They cannot be changed. -/
def settings : List (String × Cell) :=
  [("application_id", .integer 0), ("auto_vacuum", .integer 0), ("cache_size", .integer (-2000)),
    ("encoding", .ofText "UTF-8"), ("foreign_keys", .integer 1),
    ("journal_mode", .ofText "memory"), ("page_size", .integer 4096),
    ("recursive_triggers", .integer 0), ("synchronous", .integer 2), ("user_version", .integer 0)]

/-- Looks up the names of a command. -/
def Command.action (d : Database) : Command → Except Fault Action
  | .select s => return .query (← Context.relation { database := d } s)
  | .insert c t columns rows upserts returning =>
      return .write (← d.insert c t columns rows upserts returning)
  | .update c t label assignments filter returning =>
      return .write (← d.update c t label assignments filter returning)
  | .delete t label filter returning => return .write (← d.delete t label filter returning)
  | .createTable none => return .define none
  | .createTable (some t) => do
      d.checkRules t
      return .define (some fun _ => Database.defining (·.createTable t))
  | .createTableAs t s => return .define (← d.createTableAs t s)
  | .createView v => return .define (v.map fun v _ => Database.defining (·.add (.view v)))
  | .createIndex i key => return .define (i.map fun i _ => Database.createIndex i key)
  | .drop kind lenient name => return .define ((← d.drop kind lenient name).map fun c _ => c)
  | .begin => return .begin
  | .finish e => return .finish e
  | .savepoint n => return .savepoint n
  | .release n => return .release n
  | .rollbackTo n => return .rollbackTo n
  | .pragma name set =>
      match if set then none else settings.find? fun s => sameName s.1 name with
      | none => return .nothing
      | some (name, c) => return .query { columns := [{ name }], rows := fun _ => pure [c] }

namespace Action

/-- The labels of the rows that an action yields. -/
def columns : Action → List String
  | query r => r.columns.map (·.name)
  | write w => w.columns
  | _ => []

end Action

end GraphStore.Sqlite
