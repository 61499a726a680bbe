import GraphStore.Sqlite.Change

/-!
# Inserting, updating and deleting rows

The names of a write are looked up when it is prepared, which gives a plan. Carrying out a plan
changes the rows one after another, and yields what is asked for of every row.
-/

set_option autoImplicit false

namespace GraphStore.Sqlite

/-- A write whose names are looked up: the columns that it yields, and what it does. -/
structure Write where
  columns : List String
  run : List Cell → Change (List (List Cell))

/-- The columns and cells that are asked for of every row that is written. -/
structure Returning where
  columns : List String
  terms : List Term

namespace Returning

def cells (r : Returning) (params : List Cell) (row : StoredRow) : Change (List Cell) := do
  let frame ← Change.frame params row.view
  Change.ofExcept (r.terms.mapM (·.eval frame))

end Returning

namespace Database

/-- The table that a write is about. -/
def writable (d : Database) (name : TableName) : Except Fault Table := do
  if !(name.schema.all (sameName "main")) then throw (.missing .table name.text)
  if isSchemaTable name.name then throw (.readOnlyTable d.schemaTable.name)
  match d.table? name.name, d.view? name.name with
  | some t, _ => return t
  | none, some v => throw (.readOnlyView v.name)
  | none, none => throw (.missing .table name.text)

/-- Looks up what a write yields. -/
def returning (d : Database) (t : Table) (outputs : List Output) : Except Fault Returning := do
  let scope := t.scope none
  let named ← Context.outputs { database := d, scopes := [scope] } scope.sources outputs
  return ⟨named.map (·.name), named.map (·.term)⟩

/-- The place of a column that is written to; absent for the rowid, which some columns stand
for. -/
def written? (t : Table) (name : String) : Option (Option Nat) :=
  match t.columnPlace? name with
  | some i => some (if t.rowidColumn = some i then none else some i)
  | none => if isRowidName name then some none else none

end Database

/-! ## Updating -/

/-- An update whose names are looked up. The rowid is assigned to at the place `none`. -/
structure UpdatePlan where
  rules : RowRules
  onConflict : Option Conflict
  assignments : List (Option Nat × Term)
  filter : Option Term

namespace UpdatePlan

/-- The cells assigned to a row. -/
def assigned (p : UpdatePlan) (frame : Frame) : Except Fault (List (Option Nat × Cell)) :=
  p.assignments.mapM fun (i, t) => do return (i, ← t.eval frame)

def holds (p : UpdatePlan) (frame : Frame) : Except Fault Bool :=
  p.filter.elim (.ok true) (·.holds frame)

/-- Writes the cells assigned to a row; of several for one column the last counts. -/
def write (p : UpdatePlan) (params : List Cell) (old : StoredRow)
    (assigned : List (Option Nat × Cell)) : Change (Option StoredRow) := do
  let t ← Change.table p.rules.table
  let rowid ←
    match assigned.reverse.lookup none with
    | none => pure old.rowid
    | some c =>
        match ← Change.ofExcept (Change.rowidOf c) with
        | some n => pure n
        | none => throw { fault := .typeMismatch }
  let cells := assigned.foldl (fun (cells : List Cell) (i, c) => i.elim cells (cells.set · c))
    old.cells
  match ← Change.accept p.rules p.onConflict params (some old.rowid) rowid
      (Change.stored t rowid cells) with
  | none => return none
  | some cells => do
      Change.replace t.name old ⟨rowid, cells⟩
      Change.count
      return some ⟨rowid, cells⟩

end UpdatePlan

namespace Database

/-- Looks up the names of an update of a table, in the scopes of its rows. -/
def updatePlan (d : Database) (t : Table) (scopes : Scopes) (onConflict : Option Conflict)
    (assignments : List (String × Expr)) (filter : Option Expr) : Except Fault UpdatePlan := do
  let ctx : Context := { database := d, scopes }
  let assignments ← assignments.mapM fun (column, e) => do
    let term ← ctx.term e
    match written? t column with
    | some place => return (place, term)
    | none => throw (.noColumn column)
  let filter ← filter.mapM ctx.term
  let touched := assignments.filterMap (·.1)
  for r in t.references do
    if r.columns.any touched.contains then d.checkReference t r
  return { rules := ← d.rulesOf t, onConflict, assignments, filter }

def update (d : Database) (onConflict : Option Conflict) (name : TableName)
    (label : Option String) (assignments : List (String × Expr)) (filter : Option Expr)
    (returning : List Output) : Except Fault Write := do
  let t ← d.writable name
  let p ← d.updatePlan t [t.scope label] onConflict assignments filter
  for (child, r) in d.referring t.name do d.checkReference child r
  let yielded ← d.returning t returning
  let run (params : List Cell) : Change (List (List Cell)) := do
    -- all rows are looked at before the first is written
    let rows ← (← Change.table t.name).rows.filterMapM fun row => do
      let frame ← Change.frame params row.view
      if ← Change.ofExcept (p.holds frame) then
        return some (row, ← Change.ofExcept (p.assigned frame))
      else return none
    let written ← rows.filterMapM fun (row, assigned) => do
      match (← Change.table t.name).row? row.rowid with
      | none => return none
      | some old =>
          match ← p.write params old assigned with
          | none => return none
          | some new => return some (← yielded.cells params new)
    return written
  return { columns := yielded.columns, run }

/-! ## Deleting -/

def delete (d : Database) (name : TableName) (label : Option String) (filter : Option Expr)
    (returning : List Output) : Except Fault Write := do
  let t ← d.writable name
  let filter ← filter.mapM (Context.term { database := d, scopes := [t.scope label] })
  for r in t.references do d.checkReference t r
  for (child, r) in d.referring t.name do d.checkReference child r
  let yielded ← d.returning t returning
  let run (params : List Cell) : Change (List (List Cell)) := do
    let rows ← (← Change.table t.name).rows.filterM fun row => do
      Change.ofExcept (filter.elim (.ok true) (·.holds (← Change.frame params row.view)))
    rows.filterMapM fun row => do
      match (← Change.table t.name).row? row.rowid with
      | none => return none
      | some row => do
          let cells ← yielded.cells params row
          Change.remove t.name row
          Change.count
          return some cells
  return { columns := yielded.columns, run }

end Database

/-! ## Inserting -/

/-- What is done with a row whose key is taken: by the rowid, or by one of the keys. -/
structure UpsertPlan where
  rowid : Bool
  keys : List Key
  /-- The change of the row that has the key; none leaves it as it is. -/
  update : Option UpdatePlan

/-- An insert whose names are looked up. -/
structure InsertPlan where
  rules : RowRules
  onConflict : Option Conflict
  /-- For every column the place of its cell in the rows given. -/
  places : List (Option Nat)
  /-- The place of the rowid in the rows given. -/
  rowid : Option Nat
  upserts : List UpsertPlan
  yielded : Returning

namespace InsertPlan

/-- The first upsert that a row meets, with the row that has the key. -/
def met? (p : InsertPlan) (t : Table) (rowid : Int64) (cells : List Cell) :
    Option (UpsertPlan × StoredRow) :=
  p.upserts.findSome? fun u =>
    let other := (if u.rowid then t.row? rowid else none).or
      (u.keys.findSome? fun k => t.clash? k none cells)
    other.map (u, ·)

/-- Does with the row that is met as the upsert says. -/
def meet (params cells : List Cell) (u : UpsertPlan) (old : StoredRow) :
    Change (Option StoredRow) := do
  match u.update with
  | none => return none
  | some update => do
      let frame := (← Change.frame params old.view)
      let frame := { frame with levels := frame.levels ++ [⟨[⟨.null, cells⟩], []⟩] }
      if ← Change.ofExcept (update.holds frame) then
        update.write params old (← Change.ofExcept (update.assigned frame))
      else return none

/-- Inserts a row of given cells. `last` is the last rowid counted, before and after. -/
def insertRow (p : InsertPlan) (params given : List Cell) (last : Int64) :
    Change (Int64 × Option StoredRow) := do
  let t ← Change.table p.rules.table
  let frame ← Change.frame params default
  let cells ← (p.places.zip p.rules.defaults).mapM fun (place, value) =>
    match place with
    | some i => pure (given[i]?.getD .null)
    | none => Change.ofExcept (value.eval frame)
  let asked ← Change.ofExcept (Change.rowidOf (p.rowid.elim .null (given[·]?.getD .null)))
  let rowid ←
    match asked with
    | some n => pure n
    | none => Change.ofExcept (Change.newRowid t last)
  let last := if last < rowid then rowid else last
  let cells := Change.stored t rowid cells
  let keep (row : Option StoredRow) : Change (Int64 × Option StoredRow) := return (last, row)
  match ← Change.checkNulls p.rules p.onConflict params cells with
  | none => keep none
  | some cells => do
      if !(← Change.checkConditions p.rules p.onConflict params rowid cells) then
        return ← keep none
      match p.met? t rowid cells with
      | some (u, old) => keep (← meet params cells u old)
      | none => do
          if !(← Change.checkKeys p.rules p.onConflict none rowid cells) then return ← keep none
          Change.setTable ((← Change.table t.name).insert ⟨rowid, cells⟩)
          modify fun w => { w with lastRowid := rowid }
          Change.count
          keep (some ⟨rowid, cells⟩)

/-- Inserts rows, and keeps the last rowid where the table counts them. -/
def insertRows (p : InsertPlan) (params : List Cell) (rows : List (List Cell)) :
    Change (List (List Cell)) := do
  let t ← Change.table p.rules.table
  let start ← if t.counted then Change.counted t.name else pure 0
  let (last, written) ← rows.foldlM (fun (last, written) given => do
    let (last, row) ← p.insertRow params given last
    match row with
    | none => return (last, written)
    | some row => return (last, written ++ [← p.yielded.cells params row]))
    (start, ([] : List (List Cell)))
  if t.counted then Change.setCounted t.name last
  return written

end InsertPlan

namespace Database

/-- Looks up an upsert. The row that has the key is in view, and around it the row that was to be
inserted, by the name `excluded`. -/
def upsertPlan (d : Database) (t : Table) (u : Upsert) : Except Fault UpsertPlan := do
  let scopes := [t.scope none, t.scope (some "excluded")]
  let update ←
    if u.assignments.isEmpty then pure none
    else some <$> d.updatePlan t scopes none u.assignments u.filter
  if u.columns.isEmpty then return { rowid := true, keys := t.keys, update }
  let places ← t.places u.columns
  if places == t.rowidColumn.toList then return { rowid := true, keys := [], update }
  let keys := t.keys.filter fun k => k.columns.isPerm places
  if keys.isEmpty then throw .unmatchedConflict
  return { rowid := false, keys, update }

def insert (d : Database) (onConflict : Option Conflict) (name : TableName)
    (columns : List String) (rows : Option Selection) (upserts : List Upsert)
    (returning : List Output) : Except Fault Write := do
  let t ← d.writable name
  let named ← columns.mapM fun c =>
    match written? t c with
    | some place => pure place
    | none => throw (.noColumnIn name.text c)
  let relation : Relation ←
    match rows with
    | some s => Context.relation { database := d } s
    | none => pure { columns := [], rows := fun _ => pure [] }
  let width := relation.columns.length
  if rows.isSome then
    if columns.isEmpty then
      if width != t.columns.length then
        throw (.valueCount name.text t.columns.length width)
    else if width != columns.length then throw (.columnCount width columns.length)
  let inOrder := columns.isEmpty && rows.isSome
  let places := (List.range t.columns.length).map fun i =>
    if inOrder then some i else named.findIdx? (· == some i)
  let rowid :=
    if inOrder then t.rowidColumn
    else (named.reverse.findIdx? (· == none)).map (named.length - 1 - ·)
  for r in t.references do d.checkReference t r
  let plan : InsertPlan :=
    { rules := ← d.rulesOf t, onConflict, places, rowid
      upserts := ← upserts.mapM (d.upsertPlan t)
      yielded := ← d.returning t returning }
  return {
    columns := plan.yielded.columns
    run := fun params => do
      let rows := relation.rows { world := ← get, params }
      let written ← plan.insertRows params rows.items
      let _ ← Change.ofExcept rows.all
      return written }

end Database

end GraphStore.Sqlite
