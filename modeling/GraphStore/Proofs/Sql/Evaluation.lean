import GraphStore.Proofs.Sql.Grammar
import GraphStore.Statement.Basic

/-!
# Evaluating selects

What a database answers to a select, given the content of its tables. The tables are joined one
after another: every joined row so far is continued with each row of the next table on which the
condition of the join is true, and an outer join that finds none continues it with nothing. Of the
joined rows those are kept on which the filter is true, and each is written out column by column.

The order of the answer is left open: `SelectStatement.selected` lists the joined rows in the
order of the loops, and a database may answer in any other.
-/

set_option autoImplicit false

namespace GraphStore

/-- A row of a table: the cell of every column. -/
abbrev TableRow := String → Value

/-- The content of the tables of a database. -/
abbrev Tables := TableRef → List TableRow

/-- The rows that are joined, by the alias of their table; nothing for an outer join that found
no row. -/
abbrev JoinedRow := List (String × Option TableRow)

/-- The cells of a joined row; those of a missing row are null. -/
def JoinedRow.cell (j : JoinedRow) : Valuation := fun c =>
  match j.lookup c.table with
  | some (some t) => t c.column
  | _ => .null

/-- Whether a fragment is true of a row. -/
def Fragment.holds (s : Semantics) (cells : Valuation) (f : Fragment) : Bool :=
  match f.condition? with
  | some c => c.truth s cells == some true
  | none => false

theorem Fragment.holds_of_condition? {s : Semantics} {cells : Valuation} {f : Fragment}
    {c : Condition} (h : f.condition? = some c) :
    f.holds s cells = (c.truth s cells == some true) := by
  simp only [holds, h]

/-! ## Joins -/

/-- What one row is continued with when the rows of `found` match it. -/
def JoinKind.partners (kind : JoinKind) (found : List TableRow) : List (Option TableRow) :=
  match kind with
  | .inner => found.map some
  | .left => if found.isEmpty then [none] else found.map some

/-- An outer join continues with a row that was found, or with nothing when none was. -/
theorem JoinKind.mem_partners_left {found : List TableRow} {o : Option TableRow} :
    o ∈ JoinKind.left.partners found ↔ (∃ t ∈ found, o = some t) ∨ (found = [] ∧ o = none) := by
  cases found with
  | nil => simp [partners]
  | cons t ts => simp [partners, eq_comm]

/-- There is always something to continue with. -/
theorem JoinKind.exists_partner_left (found : List TableRow) :
    ∃ o, o ∈ JoinKind.left.partners found := by
  cases found with
  | nil => exact ⟨none, List.mem_singleton_self none⟩
  | cons t ts => exact ⟨some t, List.mem_map_of_mem List.mem_cons_self⟩

namespace Join

variable (s : Semantics) (tables : Tables)

/-- The rows of the table on which the condition of the join is true beside `j`. -/
def found (join : Join) (j : JoinedRow) : List TableRow :=
  (tables join.table).filter fun t => join.on.holds s (j ++ [(join.label, some t)]).cell

/-- The joined row with what it is continued with. -/
def extend (join : Join) (j : JoinedRow) : List JoinedRow :=
  (join.kind.partners (join.found s tables j)).map fun o => j ++ [(join.label, o)]

/-- The joined rows that `j` becomes, through one join after another. -/
def Leads : List Join → JoinedRow → JoinedRow → Prop
  | [], j, j' => j' = j
  | join :: rest, j, j' =>
      ∃ o ∈ join.kind.partners (join.found s tables j), Leads rest (j ++ [(join.label, o)]) j'

end Join

/-! ## Selects -/

/-- The label of a column of the result. -/
def SelectColumn.label : SelectColumn → String
  | split label => label
  | column _ _ label => label

/-- A column of the result: markers are null. -/
def SelectColumn.output (j : JoinedRow) : SelectColumn → Value
  | split _ => .null
  | column table name _ => j.cell ⟨none, table, name⟩

namespace SelectStatement

variable (s : Semantics) (tables : Tables) (st : SelectStatement)

/-- The rows of all tables, joined. -/
def joined : List JoinedRow :=
  st.joins.foldl (fun js join => js.flatMap (join.extend s tables))
    ((tables st.table).map fun t => [(st.label, some t)])

/-- The joined rows that the filter leaves. -/
def selected : List JoinedRow :=
  (st.joined s tables).filter fun j => st.filter.isEmpty || st.filter.holds s j.cell

/-- A row of the result. -/
def output (j : JoinedRow) : Row :=
  { labels := st.columns.map SelectColumn.label, values := st.columns.map (SelectColumn.output j) }

/-- The rows that a database may answer with: the selected ones in any order, and no more of them
than are asked for. -/
def Answers (rows : List Row) : Prop :=
  ∃ js : List JoinedRow, js.Perm (st.selected s tables) ∧
    rows = (st.limit.elim js js.take).map st.output

end SelectStatement

section

variable {s : Semantics} {tables : Tables}

theorem mem_foldl_join {joins : List Join} {js : List JoinedRow} {j' : JoinedRow} :
    j' ∈ joins.foldl (fun js join => js.flatMap (join.extend s tables)) js ↔
      ∃ j ∈ js, Join.Leads s tables joins j j' := by
  induction joins generalizing js with
  | nil => simp [Join.Leads]
  | cons join rest ih =>
      rw [List.foldl_cons, ih]
      constructor
      -- the fold takes the first join for all rows at once, the path takes it for one
      · rintro ⟨k, hk, leads⟩
        obtain ⟨j, hj, hextend⟩ := List.mem_flatMap.mp hk
        obtain ⟨o, ho, rfl⟩ := List.mem_map.mp hextend
        exact ⟨j, hj, o, ho, leads⟩
      · rintro ⟨j, hj, o, ho, leads⟩
        exact ⟨_, List.mem_flatMap.mpr ⟨j, hj, List.mem_map_of_mem ho⟩, leads⟩

/-- A joined row is continued, not changed. -/
theorem Join.Leads.exists_append {joins : List Join} {j j' : JoinedRow}
    (h : Join.Leads s tables joins j j') : ∃ k, j' = j ++ k := by
  induction joins generalizing j with
  | nil => exact ⟨[], h.trans (List.append_nil j).symm⟩
  | cons join rest ih =>
      obtain ⟨o, -, hrest⟩ := h
      obtain ⟨k, rfl⟩ := ih hrest
      exact ⟨(join.label, o) :: k, by simp⟩

theorem SelectStatement.mem_joined {st : SelectStatement} {j : JoinedRow} :
    j ∈ st.joined s tables ↔
      ∃ t ∈ tables st.table, Join.Leads s tables st.joins [(st.label, some t)] j := by
  rw [joined, mem_foldl_join]
  simp only [List.mem_map, exists_exists_and_eq_and]

end

/-! ## Cells -/

namespace JoinedRow

variable {j : JoinedRow} {label : String} {t : TableRow} {o : Option TableRow}

theorem cell_of_lookup (h : j.lookup label = some (some t)) (relation : Option String)
    (column : String) : j.cell ⟨relation, label, column⟩ = t column := by
  simp only [cell, h]

theorem cell_of_lookup_none (h : j.lookup label = some none) (relation : Option String)
    (column : String) : j.cell ⟨relation, label, column⟩ = .null := by
  simp only [cell, h]

theorem lookup_append_of_some (h : j.lookup label = some o) (k : JoinedRow) :
    List.lookup label (j ++ k) = some o := by
  rw [List.lookup_append, h]
  rfl

theorem lookup_concat (h : label ∉ j.map Prod.fst) :
    List.lookup label (j ++ [(label, o)]) = some o := by
  rw [List.lookup_append, List.lookup_eq_none_iff.mpr ?_]
  · simp
  · intro p hp
    simp only [ne_eq, bne_iff_ne]
    rintro rfl
    exact h (List.mem_map_of_mem hp)

end JoinedRow

end GraphStore
