import GraphStore.Sqlite.Function

/-!
# Rows of a selection

What a selection does with its rows once they are there: joining, grouping, ordering, limiting and
combining. Orders keep the rows that they do not tell apart as they are.
-/

set_option autoImplicit false

namespace GraphStore.Sqlite

/-! ## Joining -/

/-- A source of a join: its rows, its width, whether rows before it stay without a partner, and
the condition on partners. -/
structure JoinPart where
  scan : Frame → Flow RowView
  width : Nat
  left : Bool
  on : Option Term

/-- The rows chosen so far with each of their partners among the candidates. -/
def JoinPart.partners (p : JoinPart) (frame : Frame) (candidates : Flow RowView)
    (chosen : List RowView) : Flow (List RowView) :=
  let extended := candidates.map fun r => chosen ++ [r]
  let kept :=
    match p.on with
    | none => extended
    | some on => extended.filter fun rows => on.holds (frame.enter rows [])
  if p.left && kept.items.isEmpty then
    kept.append (.ofList [chosen ++ [.nulls p.width]])
  else kept

/-- All ways to choose a row of every source, the rows of the first source outermost. -/
def joinRows (frame : Frame) (parts : List JoinPart) : Flow (List RowView) :=
  go (parts.map fun p => (p, p.scan frame)) []
where
  go : List (JoinPart × Flow RowView) → List RowView → Flow (List RowView)
    | [], chosen => pure chosen
    | (p, candidates) :: rest, chosen => do
        go rest (← p.partners frame candidates chosen)

/-! ## Order -/

/-- One key of an order. -/
structure OrderKey where
  term : Term
  descending : Bool
  nullsFirst : Bool

/-- How rows compare by their cells at the keys. -/
def compareKeys : List OrderKey → List Cell → List Cell → Ordering
  | k :: ks, a :: as, b :: bs =>
      let o : Ordering :=
        match a.isNull, b.isNull with
        | true, true => .eq
        | true, false => if k.nullsFirst then .lt else .gt
        | false, true => if k.nullsFirst then .gt else .lt
        | false, false =>
            let o := a.order (k.term.collation.getD .binary) b
            if k.descending then o.swap else o
      o.then (compareKeys ks as bs)
  | _, _, _ => .eq

/-- Rows with their keys, put in order. -/
def sortRows {α : Type} (keys : List OrderKey) (rows : List (List Cell × α)) : List α :=
  (rows.mergeSort fun a b => compareKeys keys a.1 b.1 != .gt).map (·.2)

/-- How rows compare cell by cell. -/
def compareCells (columns : List (Option Collation)) (a b : List Cell) : Ordering :=
  match columns, a, b with
  | c :: cs, x :: xs, y :: ys =>
      (x.order (c.getD .binary) y).then (compareCells cs xs ys)
  | _, _, _ => .eq

def sameCells (columns : List (Option Collation)) (a b : List Cell) : Bool :=
  compareCells columns a b == .eq

/-- The rows without those that equal an earlier one. -/
def distinctRows {α : Type} (same : α → α → Bool) : List α → List α
  | rows => (rows.foldl (fun (kept : List α) r => if kept.any (same r) then kept else r :: kept)
      []).reverse

/-- The columns by which the rows of a table can be read in order, when an order by these columns
asks for no more: none for the order of rowids, or the columns of a key that begins with them. -/
def Table.readingOrder? (t : Table) : List (Option Nat) → Option (List Nat)
  | [] => none
  | first :: rest =>
      if first.isNone || first == t.rowidColumn then some []
      else
        ((t.keys.map (·.columns)).find? fun columns =>
          (first :: rest).isPrefixOf (columns.map some))

/-- The rows of a table, which are there in the order of their rowids, read by some columns. -/
def Table.readBy (t : Table) (columns : List Nat) (descending : Bool) (rows : List RowView) :
    List RowView :=
  let collations := columns.map fun i => some (t.column i).collation
  let key (r : RowView) : List Cell := Table.keyCells columns r.cells
  let sorted := rows.mergeSort fun a b => compareCells collations (key a) (key b) != .gt
  if descending then sorted.reverse else sorted

/-- The part of the rows that a limit leaves; a negative limit leaves all. -/
def limitRows {α : Type} (limit : Option Int) (offset : Int) (rows : Flow α) : Flow α :=
  let rows := rows.drop offset.toNat
  match limit with
  | some n => if n < 0 then rows else rows.take n.toNat
  | none => rows

/-! ## Groups -/

/-- Rows in order of their keys, cut where the keys change. -/
def groupsOf {α : Type} (columns : List (Option Collation)) (rows : List (List Cell × α)) :
    List (List α) :=
  let sorted := rows.mergeSort fun a b => compareCells columns a.1 b.1 != .gt
  (cut sorted).map (·.2)
where
  cut : List (List Cell × α) → List (List Cell × List α)
    | [] => []
    | (k, a) :: rest =>
        match cut rest with
        | [] => [(k, [a])]
        | (l, group) :: groups =>
            if sameCells columns k l then (k, a :: group) :: groups
            else (k, [a]) :: (l, group) :: groups

/-- A call of an aggregate: what it does, and its arguments. -/
structure AggregateCall where
  fold : Fold
  arguments : List Term
  distinct : Bool
  /-- Of a least or greatest value: whether the greatest. -/
  extreme : Option Bool := none

def AggregateCall.collation (a : AggregateCall) : Collation :=
  ((a.arguments.head?).bind (·.collation)).getD .binary

/-- The value of an aggregate over the frames of the rows of a group. -/
def AggregateCall.eval (a : AggregateCall) (frames : List Frame) : Except Fault Cell := do
  let rows ← frames.mapM fun f => a.arguments.mapM (·.eval f)
  let rows :=
    if a.distinct then
      distinctRows (fun r s => (r.headD .null).sameAs a.collation (s.headD .null)) rows
    else rows
  a.fold rows

/-- The row that stands for a group where columns are used outside of aggregates: the first, or
the one with the least or greatest value when that is all that is asked for. -/
def representative (calls : List AggregateCall) (rows : List (List RowView))
    (enter : List RowView → Frame) : Except Fault (Option (List RowView)) := do
  match calls with
  | [{ extreme := some greatest, arguments := [t], .. }] =>
      let c := t.collation.getD .binary
      let valued ← rows.mapM fun r => do return (← t.eval (enter r), r)
      let best := (valued.filter fun p => !p.1.isNull).foldl
        (fun (best : Option (Cell × List RowView)) p =>
          match best with
          | none => some p
          | some b =>
              let o := p.1.order c b.1
              if (greatest && o == .gt) || (!greatest && o == .lt) then some p else some b) none
      return (best.map (·.2)).or rows.head?
  | _ => return rows.head?

/-! ## Combining -/

/-- What two selections come to under an operator. `UNION ALL` runs through one after the other; the
others leave each row once and put the rows in order. -/
def CompoundOp.combine (op : CompoundOp) (columns : List (Option Collation))
    (a b : Flow (List Cell)) : Flow (List Cell) :=
  let same := sameCells columns
  let tidy (f : List (List Cell) → List (List Cell) → List (List Cell)) : Flow (List Cell) :=
    Flow.ofAll do
      let rows := f (← a.all) (← b.all)
      return distinctRows same (rows.mergeSort fun r s => compareCells columns r s != .gt)
  match op with
  | .unionAll => a.append b
  | .union => tidy fun a b => a ++ b
  | .intersect => tidy fun a b => a.filter fun r => b.any (same r)
  | .except => tidy fun a b => a.filter fun r => !b.any (same r)

end GraphStore.Sqlite
