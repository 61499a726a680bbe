import GraphStore.Sqlite.Grammar.Definition
import GraphStore.Sqlite.Grouping
import GraphStore.Sqlite.Lookup

/-!
# The meaning of expressions and selections

Looking up all names turns an expression into a term and a selection into a relation. Faults in
names are found here, before any row is looked at.
-/

set_option autoImplicit false

namespace GraphStore.Sqlite

/-- Where names are looked up. -/
structure Context where
  database : Database
  scopes : Scopes := []
  /-- The views around, which must not lead back to themselves. -/
  views : List String := []
  /-- The reason why aggregates have no place here, if they have none. -/
  noAggregates : Option (String → Fault) := some .misusedAggregate

/-- Looking up, while the calls of aggregates met are collected. -/
abbrev Resolver := StateT (List AggregateCall) (Except Fault)

namespace Term

def unary (op : UnaryOp) (t : Term) : Term :=
  match op with
  | .negate => t.map fun
      | .real x => .real ⟨x.bits ^^^ 0x8000000000000000⟩
      | c => ArithmeticOp.subtract.apply (.integer 0) c
  | .plus => { t with affinity := none, column := none }
  | .invert => t.map fun c => if c.isNull then .null else .integer (~~~c.toInteger)
  | .not => t.map fun c => .ofTruth c.truth.not

def binary (op : BinaryOp) (s t : Term) : Term :=
  match op with
  | .or => connect true Truth.or s t
  | .and => connect false Truth.and s t
  | .concat => map₂ (fun a b =>
      if a.isNull || b.isNull then .null else .text (a.bytes ++ b.bytes)) s t
  | .is => compare (fun a c x y => some (isSame a c x y)) s t
  | .isNot => compare (fun a c x y => some (!isSame a c x y)) s t
  | .comparison op => compare op.apply s t
  | .arithmetic op => map₂ op.apply s t
where
  /-- Equality under which nulls are equal. -/
  isSame (a : Option Affinity) (c : Collation) (x y : Cell) : Bool :=
    if x.isNull || y.isNull then x.isNull && y.isNull
    else (Affinity.compared a x).order c (Affinity.compared a y) == .eq

/-- Membership in cells that are compared under an affinity: unknown when the cell is found only
perhaps. -/
def member (a : Option Affinity) (c : Collation) (x : Cell) (ys : List Cell) : Truth :=
  if ys.isEmpty then some false
  else if x.isNull then none
  else if ys.any fun y => ComparisonOp.equal.apply a c x y == some true then some true
  else if ys.any Cell.isNull then none
  else some false

/-- The first cell that is not null; those after it are not asked for. -/
def firstPresent : List Term → Frame → Except Fault Cell
  | [], _ => .ok .null
  | t :: ts, frame => do
      let c ← t.eval frame
      if c.isNull then firstPresent ts frame else return c

/-- The result of the first branch whose condition holds. -/
def firstBranch (condition : Term → Frame → Except Fault Bool) (otherwise : Term) :
    List (Term × Term) → Frame → Except Fault Cell
  | [], frame => otherwise.eval frame
  | (test, result) :: rest, frame => do
      if ← condition test frame then result.eval frame
      else firstBranch condition otherwise rest frame

/-- A call of a function. -/
def call (f : Function) (args : List Term) : Term :=
  { eval := fun frame => do f.apply frame.world (← args.mapM (·.eval frame)) }

end Term

/-! ## Outputs and orders -/

/-- An output with its name and its term. -/
structure NamedTerm where
  name : String
  term : Term
  /-- What the output was written as, where it was written. -/
  source : Option Expr := none

/-- The columns of sources, as outputs. -/
def sourceOutputs (sources : List (SourceView × Nat)) : List NamedTerm :=
  sources.flatMap fun (s, i) =>
    s.columns.zipIdx.map fun (c, j) => ⟨c.name, .ofColumn ⟨0, i, some j⟩ c, none⟩

/-- The number that an expression is, if it is just a number. -/
def ordinal? : Expr → Option Int
  | .constant (.integer n) => some n.toInt
  | .unary .negate (.constant (.integer n)) => some (-n.toInt)
  | .unary .plus e => ordinal? e
  | .collate e _ => ordinal? e
  | _ => none

def sequenceText (s : String) : Option Bool :=
  if sameName s "true" then some true else if sameName s "false" then some false else none

/-- Names made different from those before them by a number. -/
def distinctNames (names : List String) : List String :=
  names.foldl (fun taken n => taken ++ [fresh taken n (taken.length + 1) 1]) []
where
  fresh (taken : List String) (n : String) : Nat → Nat → String
    | 0, _ => n
    | fuel + 1, k =>
        let candidate := if k = 1 then n else n ++ ":" ++ toString (k - 1)
        if taken.any (sameName candidate) then fresh taken n fuel (k + 1) else candidate

/-- A place in a list given from one on, for the clause that gives it. -/
def checkedPlace (clause : String) (place : Nat) (n : Int) (count : Nat) : Except Fault Nat :=
  if 1 ≤ n ∧ n ≤ count then .ok (n.toNat - 1) else .error (.ordinal place clause count)

/-- The value of a limit, which must be an integer. -/
def limitValue (t : Option Term) (frame : Frame) : Except Fault (Option Int) :=
  match t with
  | none => .ok none
  | some t => do
      match Affinity.toNumeric (← t.eval frame) with
      | .integer n => return some n.toInt
      | _ => throw .typeMismatch

/-- A source after its names are looked up. The condition of its join is looked up later, with the
names of all sources. -/
structure FoundSource where
  view : SourceView
  scan : Frame → Flow RowView
  left : Bool
  on : Option Expr
  /-- The table whose rows it has, if these are all of a table. -/
  table : Option Table := none

namespace FoundSource

/-- The columns of the only source that an order goes by, and its direction, if that is all that
the order asks for. -/
def orderedColumns? (order : List OrderKey) : Option (List (Option Nat) × Bool) := do
  let descending := (← order.head?).descending
  let columns ← order.mapM fun k => do
    let (_, place) ← k.term.column
    if place.depth == 0 && k.descending == descending && k.nullsFirst == !descending then
      some place.column
    else none
  return (columns, descending)

/-- The source with its rows read in an order, if its table can be read so. -/
def inOrder? (s : FoundSource) (order : List OrderKey) : Option FoundSource := do
  let t ← s.table
  let (columns, descending) ← orderedColumns? order
  let reading ← t.readingOrder? columns
  return { s with scan := fun frame =>
    let rows := s.scan frame
    { rows with items := t.readBy reading descending rows.items } }

/-- The sources and what is left of an order. A single table is read in order where it can be, so
that its rows need not be put in order afterwards. -/
def read (sources : List FoundSource) (grouped : Bool) (order : List OrderKey) :
    List FoundSource × List OrderKey :=
  match sources with
  | [s] =>
      match if grouped then none else s.inOrder? order with
      | some s => ([s], [])
      | none => ([s], order)
  | _ => (sources, order)

end FoundSource

/-- The parts of a selection after its names are looked up. -/
structure Plan where
  parts : List JoinPart
  outputs : List NamedTerm
  filter : List Term
  grouped : Bool
  calls : List AggregateCall
  groupBy : List Term
  having : Option Term
  order : List OrderKey
  distinct : Bool

namespace Plan

def collations (ts : List Term) : List (Option Collation) := ts.map (·.collation)

/-- The frame of a group: the values of the aggregates, and the row that stands for the group. -/
def enterGroup (p : Plan) (frame : Frame) (group : List (List RowView)) : Except Fault Frame := do
  let enter (rows : List RowView) : Frame := frame.enter rows []
  let values ← p.calls.mapM (·.eval (group.map enter))
  let row ← representative p.calls group enter
  return frame.enter (row.getD (p.parts.map fun part => .nulls part.width)) values

/-- The frames that outputs are evaluated in: one a row, or one a group. -/
def frames (p : Plan) (frame : Frame) : Flow Frame :=
  let enter (rows : List RowView) : Frame := frame.enter rows []
  let rows := (joinRows frame p.parts).filter fun rows => p.filter.allM (·.holds (enter rows))
  if !p.grouped then rows.map enter
  else do
    let keyed : List (List Cell × List RowView) ← (do
      (← rows.all).mapM fun r => do return (← p.groupBy.mapM (·.eval (enter r)), r) :
        Except Fault _)
    let groups :=
      if p.groupBy.isEmpty then [keyed.map (·.2)] else groupsOf (collations p.groupBy) keyed
    let group ← Flow.ofList groups
    let entered ← p.enterGroup frame group
    match p.having with
    | none => pure entered
    | some h => (pure entered : Flow Frame).filter h.holds

/-- The rows of the outputs, in order. -/
def rows (p : Plan) (frame : Frame) : Flow (List Cell) :=
  let found : Flow (List Cell × List Cell) := do
    let f ← p.frames frame
    Flow.ofExcept do return (← p.order.mapM (·.term.eval f), ← p.outputs.mapM (·.term.eval f))
  let found :=
    if p.distinct then
      { found with
        items := distinctRows
          (fun a b => sameCells (collations (p.outputs.map (·.term))) a.2 b.2) found.items }
    else found
  if p.order.isEmpty then found.map (·.2) else found.gather (sortRows p.order)

end Plan

/-- The outputs of a selection, whose expressions `resolve` looks up. -/
def namedOutputs (resolve : Expr → Resolver Term) (views : List SourceView)
    (outputs : List Output) : Resolver (List NamedTerm) := do
  let named ← outputs.mapM fun
    | .all => do
        if views.isEmpty then throw .noTables
        return sourceOutputs views.zipIdx
    | .allOf table => do
        match views.zipIdx.filter fun (v, _) => sameName v.name table with
        | [] => throw (.missing .table table)
        | vs => return sourceOutputs vs
    | .expr e label written => do
        let t ← resolve e
        return [⟨label.getD ((t.column.map (·.1)).getD written), t, some e⟩]
  return named.flatten

/-! ## Looking up -/

mutual

/-- The term of an expression. -/
def resolveExpr : Nat → Context → Expr → Resolver Term
  | 0, _, _ => throw .expressionTooDeep
  | fuel + 1, ctx, e =>
      match e with
      | .constant c => return .constant c
      | .param place => return { eval := fun frame => .ok (frame.param place) }
      | .name qualifiers column quoted => do
          match ← lookUp ctx.scopes qualifiers column with
          | some (.column p view) => return .ofColumn p view
          | some (.output depth e) =>
              let scopes := (ctx.scopes.drop depth).modifyHead ({ · with outputs := [] })
              let t ← resolveExpr fuel { ctx with scopes } e
              return { t with
                eval := fun frame => t.eval { frame with levels := frame.levels.drop depth }
                column := if depth = 0 then t.column else none }
          | none =>
              if qualifiers.isEmpty && quoted then return .constant (.ofText column)
              match if qualifiers.isEmpty then sequenceText column else none with
              | some b => return .constant (.ofBool b)
              | none =>
                  throw (.noColumn (String.intercalate "." (qualifiers ++ [column])))
      | .unary op e => return .unary op (← resolveExpr fuel ctx e)
      | .binary op l r => do
          let s ← resolveExpr fuel ctx l
          match op, r with
          | .is, .name [] n false =>
              match ← lookUp ctx.scopes [] n, sequenceText n with
              | none, some b => return s.map fun c => .ofBool (c.truth == some b)
              | _, _ => return .binary op s (← resolveExpr fuel ctx r)
          | .isNot, .name [] n false =>
              match ← lookUp ctx.scopes [] n, sequenceText n with
              | none, some b => return s.map fun c => .ofBool (c.truth != some b)
              | _, _ => return .binary op s (← resolveExpr fuel ctx r)
          | _, _ => return .binary op s (← resolveExpr fuel ctx r)
      | .isNull e => do
          let t ← resolveExpr fuel ctx e
          return t.map fun c => .ofBool c.isNull
      | .pattern op e p x => do
          let s ← resolveExpr fuel ctx e
          let p ← resolveExpr fuel ctx p
          let x ← x.mapM (resolveExpr fuel ctx)
          return { eval := fun frame => do
            let s ← s.eval frame
            let p ← p.eval frame
            let x ← x.mapM (·.eval frame)
            Cell.ofTruth <$> op.apply s p x }
      | .between e low high => do
          let s ← resolveExpr fuel ctx e
          let low ← resolveExpr fuel ctx low
          let high ← resolveExpr fuel ctx high
          return .connect false Truth.and
            (.compare ComparisonOp.greaterEqual.apply s low)
            (.compare ComparisonOp.lessEqual.apply s high)
      | .inList e es => do
          let s ← resolveExpr fuel ctx e
          let ts ← es.mapM (resolveExpr fuel ctx)
          return { eval := fun frame => do
            let x ← s.eval frame
            let ys ← ts.mapM (·.eval frame)
            return .ofTruth (Term.member s.affinity (s.collation.getD .binary) x ys) }
      | .inSelection e q => do
          let s ← resolveExpr fuel ctx e
          let r ← resolveSelection fuel { ctx with noAggregates := some .misusedAggregate } q
          if r.columns.length != 1 then throw (.subqueryWidth r.columns.length 1)
          let a := Affinity.ofBoth s.affinity ((r.columns.head?).bind (·.affinity))
          return { eval := fun frame => do
            let x ← s.eval frame
            let rows ← (r.rows frame).all
            return .ofTruth (Term.member a (s.collation.getD .binary) x (rows.map (·.headD .null))) }
      | .existsIn q => do
          let r ← resolveSelection fuel { ctx with noAggregates := some .misusedAggregate } q
          return { eval := fun frame => do return .ofBool (← (r.rows frame).first?).isSome }
      | .scalar q => do
          let r ← resolveSelection fuel { ctx with noAggregates := some .misusedAggregate } q
          if r.columns.length != 1 then throw (.subqueryWidth r.columns.length 1)
          let view := (r.columns.head?).getD default
          return {
            eval := fun frame => do return ((← (r.rows frame).first?).getD []).headD .null
            affinity := view.affinity, collation := view.collation }
      | .choice base branches otherwise => do
          let b ← base.mapM (resolveExpr fuel ctx)
          let ts ← branches.mapM fun (test, result) => do
            return (← resolveExpr fuel ctx test, ← resolveExpr fuel ctx result)
          let o ← otherwise.mapM (resolveExpr fuel ctx)
          let condition (t : Term) : Frame → Except Fault Bool :=
            match b with
            | none => t.holds
            | some b => (Term.compare ComparisonOp.equal.apply b t).holds
          return { eval := Term.firstBranch condition (o.getD default) ts }
      | .cast e type => do
          let t ← resolveExpr fuel ctx e
          let a := Affinity.ofType type
          return { t with
            eval := fun frame => do return a.cast (← t.eval frame)
            affinity := some a, column := none }
      | .collate e name => do
          let t ← resolveExpr fuel ctx e
          return { t with collation := some (← collationNamed name), explicit := true, column := none }
      | .call name distinct args => do
          let lower := name.map Char.toLower
          let count := (args.getD []).length
          let inner : Context :=
            if (Fold.find? lower count .binary).isSome then
              { ctx with noAggregates := some .misusedAggregate }
            else ctx
          let ts ← (args.getD []).mapM (resolveExpr fuel inner)
          let collation := ((ts.head?).bind (·.collation)).getD .binary
          match Fold.find? lower count collation with
          | some fold => do
              match ctx.noAggregates with
              | some reason => throw (reason name)
              | none =>
                  let extreme :=
                    if lower == "max" then some true else if lower == "min" then some false
                    else none
                  let k := (← get).length
                  modify (· ++ [{ fold, arguments := ts, distinct, extreme }])
                  return { eval := fun frame => .ok ((frame.level 0).aggregates[k]?.getD .null) }
          | none =>
              if args.isNone then throw (.argumentCount name)
              if (lower == "coalesce" && 2 ≤ count) || (lower == "ifnull" && count == 2) then
                return { eval := Term.firstPresent ts }
              match lower == "iif" || lower == "if", ts with
              | true, [c, a] => return { eval := Term.firstBranch Term.holds default [(c, a)] }
              | true, [c, a, b] => return { eval := Term.firstBranch Term.holds b [(c, a)] }
              | _, _ =>
                  match Function.find? lower count collation with
                  | some f => return .call f ts
                  | none =>
                      if Function.isKnown lower then throw (.argumentCount name)
                      else throw (.noFunction name)

/-- The relation of a selection. -/
def resolveSelection : Nat → Context → Selection → Except Fault Relation
  | 0, _, _ => throw .expressionTooDeep
  | fuel + 1, ctx, .mk first rest orderBy limit offset => do
      let bare : Context :=
        { ctx with scopes := [], noAggregates := some .misusedAggregate }
      let limited (r : Relation) : Except Fault Relation := do
        let limit ← limit.mapM fun e => do return (← (resolveExpr fuel bare e).run []).1
        let offset ← offset.mapM fun e => do return (← (resolveExpr fuel bare e).run []).1
        return { r with
          rows := fun frame => do
            let limit ← limitValue limit frame
            let offset ← limitValue offset frame
            limitRows limit (offset.getD 0) (r.rows frame) }
      match rest with
      | [] => limited (← resolveCore fuel ctx first orderBy)
      | _ =>
          let relation ← resolveCore fuel ctx first []
          let collations := relation.columns.map (·.collation)
          let combined : Relation ← rest.foldlM (fun (r : Relation) (op, core) => do
            let s ← resolveCore fuel ctx core []
            if r.columns.length != s.columns.length then
              match core with
              | .values _ => throw .unevenValues
              | _ => throw (.unevenSelects op.text)
            return { r with
              rows := fun frame => op.combine collations (r.rows frame) (s.rows frame) }) relation
          let keys : List (Nat × OrderKey) ← orderBy.zipIdx.mapM fun (.mk e descending nulls, i) => do
            let count := combined.columns.length
            let place ←
              match ordinal? e, e with
              | some n, _ => checkedPlace "ORDER" (i + 1) n count
              | none, .name [] n _ =>
                  match combined.columns.findIdx? fun c => sameName c.name n with
                  | some k => pure k
                  | none => throw (.unmatchedOrder (i + 1))
              | none, _ => throw (.unmatchedOrder (i + 1))
            let collation := (combined.columns[place]?).bind (·.collation)
            return (place, {
              term := { eval := fun _ => .ok .null, collation }
              descending, nullsFirst := nulls.getD (!descending) })
          limited { combined with
            rows := fun frame =>
              let rows := combined.rows frame
              if keys.isEmpty then rows
              else rows.gather fun rows => sortRows (keys.map (·.2))
                (rows.map fun r => (keys.map fun (k, _) => r[k]?.getD .null, r)) }

/-- The relation of one core, in an order. -/
def resolveCore : Nat → Context → Core → List OrderTerm → Except Fault Relation
  | 0, _, _, _ => throw .expressionTooDeep
  | fuel + 1, ctx, .values rows, _ => do
      let ctx := { ctx with noAggregates := some .misusedAggregate }
      let terms ← rows.mapM (·.mapM fun e => do return (← (resolveExpr fuel ctx e).run []).1)
      let columns := (terms.headD []).zipIdx.map fun (t, i) =>
        ({ name := "column" ++ toString (i + 1), affinity := t.affinity, collation := t.collation } :
          ColumnView)
      return { columns, rows := fun frame => do
        let row ← Flow.ofList terms
        Flow.ofExcept (row.mapM (·.eval frame)) }
  | fuel + 1, ctx, .select distinct outputs sources filter groupBy having, orderBy => do
      let found ← sources.mapM (resolveSource fuel ctx)
      let views := found.map (·.view)
      let scope : Scope := { sources := views }
      let listing : Context := { ctx with scopes := scope :: ctx.scopes, noAggregates := none }
      -- outputs
      let (named, calls) ← (namedOutputs (resolveExpr fuel listing) views outputs).run []
      let grouped := !groupBy.isEmpty || !calls.isEmpty
      -- the other clauses, which can use the names of the outputs
      let names := outputs.filterMap fun
        | .expr e (some a) _ => some (a, e)
        | _ => none
      let scopes := { scope with outputs := names } :: ctx.scopes
      let inner : Context :=
        { ctx with scopes, noAggregates := if grouped then none else some .misusedAggregate }
      let rowwise : Context :=
        { ctx with scopes,
                   noAggregates := some (if grouped then .misplacedAggregate else .misusedAggregate) }
      if having.isSome && !grouped then throw .havingAlone
      let (having, calls) ← (having.mapM (resolveExpr fuel inner)).run calls
      let filter ← filter.mapM fun e => do return (← (resolveExpr fuel rowwise e).run []).1
      let conditions ← (found.map (·.on)).mapM fun e =>
        e.mapM fun e => do return (← (resolveExpr fuel rowwise e).run []).1
      let lookOrder : Resolver (List OrderKey) := orderBy.zipIdx.mapM fun
        | (.mk e descending nulls, i) => do
            let term ←
              match ordinal? e, e with
              | some n, _ => do
                  let place ← checkedPlace "ORDER" (i + 1) n named.length
                  pure ((named[place]?.map (·.term)).getD default)
              | none, .name [] n quoted =>
                  match named.find? fun o => o.source.isSome && sameName o.name n &&
                      names.any fun (a, _) => sameName a n with
                  | some o => pure o.term
                  | none => resolveExpr fuel inner (.name [] n quoted)
              | none, e => resolveExpr fuel inner e
            return { term, descending, nullsFirst := nulls.getD (!descending) }
      let (order, calls) ← lookOrder.run calls
      let groupBy ← groupBy.zipIdx.mapM fun (e, i) => do
        match ordinal? e with
        | some n =>
            let place ← checkedPlace "GROUP" (i + 1) n named.length
            return (named[place]?.map (·.term)).getD default
        | none => return (← (resolveExpr fuel { rowwise with
            noAggregates := some .misusedAggregate } e).run []).1
      -- inner joins filter all rows at the end, outer ones choose partners
      let (found, order) := FoundSource.read found grouped order
      let parts := (found.zip conditions).map fun (s, on) =>
        ({ scan := s.scan, width := s.view.columns.length, left := s.left
           on := if s.left then on else none } : JoinPart)
      let joined := (found.zip conditions).filterMap fun (s, on) => if s.left then none else on
      let plan : Plan :=
        { parts, outputs := named, filter := joined ++ filter.toList, grouped, calls, groupBy,
          having, order, distinct }
      return {
        columns := named.map fun o =>
          { name := o.name, affinity := o.term.affinity, collation := o.term.collation }
        rows := plan.rows }

/-- A source of a selection. -/
def resolveSource : Nat → Context → Source → Except Fault FoundSource
  | 0, _, _ => throw .expressionTooDeep
  | fuel + 1, ctx, .mk left item label on => do
      let ofRelation (name : String) (r : Relation) : FoundSource :=
        let names := distinctNames (r.columns.map (·.name))
        let columns := (r.columns.zip names).map fun (c, name) => { c with name }
        { view := { name, columns }, left, on
          scan := fun frame => (r.rows frame).map fun cells => ⟨.null, cells⟩ }
      match item with
      | .selection s =>
          return ofRelation (label.getD "") (← resolveSelection fuel
            { ctx with noAggregates := some .misusedAggregate } s)
      | .table schema name =>
          let written := (TableName.mk schema name).text
          if !(schema.all (sameName "main")) then throw (.missing .table written)
          if isSchemaTable name then
            let t := ctx.database.schemaTable
            return {
              view := { name := label.getD name, columns := t.views, rowidName := some "rowid" }
              scan := fun frame => .ofList (frame.world.database.schemaRows.map (·.view))
              left, on }
          match ctx.database.table? name with
          | some t =>
              return {
                view := { name := label.getD t.name, columns := t.views,
                          rowidName := some t.rowidName }
                scan := fun frame => .ofList
                  (((frame.world.database.table? t.name).elim [] (·.rows)).map (·.view))
                left, on, table := some t }
          | none =>
              match ctx.database.view? name with
              | none => throw (.missing .table written)
              | some v =>
                  if ctx.views.any (sameName v.name) then throw (.circularView v.name)
                  let r ← resolveSelection fuel
                    { database := ctx.database, views := v.name :: ctx.views } v.selection
                  if !v.columns.isEmpty && v.columns.length != r.columns.length then
                    throw (.columnNames v.name v.columns.length r.columns.length)
                  let columns :=
                    if v.columns.isEmpty then r.columns
                    else (r.columns.zip v.columns).map fun (c, name) => { c with name }
                  return ofRelation (label.getD v.name) { r with
                    columns, rows := fun frame => r.rows { frame with levels := [] } }

end

/-- The depth of nesting above which a statement is refused. -/
def maxNesting : Nat := 100000

namespace Context

/-- The term of an expression that stands on its own. -/
def term (ctx : Context) (e : Expr) : Except Fault Term := do
  return (← (resolveExpr maxNesting ctx e).run []).1

def relation (ctx : Context) (s : Selection) : Except Fault Relation :=
  resolveSelection maxNesting ctx s

/-- Outputs computed from single rows. -/
def outputs (ctx : Context) (views : List SourceView) (os : List Output) :
    Except Fault (List NamedTerm) := do
  return (← (namedOutputs (resolveExpr maxNesting ctx) views os).run []).1

end Context

end GraphStore.Sqlite
