import GraphStore.Statement.Filter

/-!
# Selects

`Model.select` joins the table of an entity with the tables of the relations to be included.
Every table gets an alias of its own, so a table can take part several times, and columns reached
through a relation are qualified by the alias of its join.
-/

set_option autoImplicit false

namespace GraphStore

/-- The alias of the next use of `table`: its name, then its name with a number. `used` holds the
tables that already take part. -/
def nextAlias (used : List String) (table : String) : String :=
  let count := used.count table
  if count = 0 then table else table ++ "__" ++ toString count

/-- A select under construction. -/
structure SelectDraft where
  columns : List SelectColumn := []
  joins : List Join := []
  segments : List Segment := []
  /-- The tables that take part. -/
  used : List String := []
  /-- The alias of every relation included. -/
  aliases : List (String × String) := []
  context : Context := {}

namespace SelectDraft

/-- The result columns of one table: the marker and the selectable columns. -/
def columnsOf (map : EntityMap) (label split : String) : List SelectColumn :=
  .split split :: (map.columns.filter (·.selectable)).map fun c =>
    .column label c.name (label ++ "__" ++ c.name)

/-- Adds the columns of a table and the segment that describes them. -/
def addSegment (d : SelectDraft) (relation : Option RelationDef) (map : EntityMap)
    (label : String) : SelectDraft :=
  { d with
    columns := d.columns ++ columnsOf map label ("split_" ++ toString d.segments.length)
    segments := d.segments ++ [
      { relation, map, label, start := d.columns.length
        properties := (map.columns.filter (·.selectable)).map (·.property) }] }

/-- The token with the alias of the table it belongs to. -/
def qualify (d : SelectDraft) (root : String) (token : ColumnToken) : Except Error ColumnToken :=
  match token.relation with
  | none => .ok { token with table := root }
  | some relation =>
      match d.aliases.lookup relation with
      | some label => .ok { token with table := label }
      | none => fail (.notIncluded relation)

/-- The tokens with every column qualified. -/
def qualifyTokens (d : SelectDraft) (root : String) : List Token → Except Error (List Token)
  | [] => .ok []
  | .column c :: rest => do
      let c ← d.qualify root c
      return .column c :: (← d.qualifyTokens root rest)
  | t :: rest => return t :: (← d.qualifyTokens root rest)

end SelectDraft

/-- A column of a joined table. -/
def EntityMap.aliased (map : EntityMap) (label property : String) : Except Error ColumnToken :=
  (map.column property).map fun c => ⟨none, label, c.name⟩

/-- The join kind of a relation: only a required reference always finds its row. -/
def RelationDef.joinKind (r : RelationDef) : JoinKind :=
  match r.kind with
  | .manyToOne => if r.nullable then .left else .inner
  | .oneToMany => .left

namespace Model

/-- Joins one more relation of the entity of `map`. -/
def includeRelation (m : Model) (map : EntityMap) (root : String) (includeDeleted : Bool)
    (d : SelectDraft) (name : String) : Except Error SelectDraft := do
  let relation ← map.relation name
  if (d.aliases.lookup relation.property).isSome then
    throw (.of (.includedTwice relation.property))
  let target ← m.target relation
  let label := nextAlias d.used target.table.name
  let foreign ← target.aliased label relation.foreignKey
  let own ← map.aliased root relation.localKey
  let on := Fragment.ofColumn foreign ++ .ofText " = " ++ .ofColumn own
  let (on, context) :=
    if relation.kind = .oneToMany ∧ !includeDeleted then
      match notDeleted target label d.context with
      | (some condition, context) => (on ++ .ofText " AND " ++ condition, context)
      | (none, context) => (on, context)
    else (on, d.context)
  let joined :=
    { d with
      joins := d.joins ++ [Join.mk relation.joinKind target.table label on]
      used := target.table.name :: d.used
      aliases := (relation.property, label) :: d.aliases
      context }
  return joined.addSegment (some relation) target label

/-- The condition on the joined rows, before rows marked as deleted are left out. Nothing is
written for the predicate that always holds. -/
def selectFilter (m : Model) (map : EntityMap) (root : String) (d : SelectDraft)
    (p : Predicate) : Except Error (Fragment × Context) :=
  match p with
  | .constant true => .ok (.empty, d.context)
  | p => do
      let (f, context) ← m.compile map p d.context
      let tokens ← d.qualifyTokens root f.tokens
      return (⟨tokens⟩, context)

/-- The ordering with every column qualified. -/
def orderColumns (m : Model) (map : EntityMap) (root : String) (d : SelectDraft) :
    List (String × Order) → Except Error (List (ColumnToken × Order))
  | [] => .ok []
  | (path, order) :: rest => do
      let resolved ← m.resolve map path
      let token ← d.qualify root resolved.token
      return (token, order) :: (← m.orderColumns map root d rest)

/-- The entities of `map` on which `p` holds, joined with the relations named in `includes`.
Relations that `p` or the ordering mention must be among them. -/
def select (m : Model) (map : EntityMap) (p : Predicate) (includes : List String)
    (options : SelectOptions) : Except Error SelectStatement := do
  let root := map.table.name
  let start : SelectDraft := { used := [root], context := { clause := .select } }
  let d ← includes.foldlM (m.includeRelation map root options.includeDeleted)
    (start.addSegment none map root)
  let (filter, context) ← m.selectFilter map root d p
  let filter :=
    if options.includeDeleted then filter
    else match (notDeleted map root context).1 with
      | none => filter
      | some condition =>
          if filter.isEmpty then condition else filter ++ .ofText " AND " ++ condition
  let orderBy ← m.orderColumns map root d options.orderBy
  return { table := map.table, label := root, columns := d.columns, joins := d.joins, filter,
           orderBy, limit := options.limit, segments := d.segments }

end Model

end GraphStore
