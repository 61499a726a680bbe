import GraphStore.Proofs.Statement.Built
import GraphStore.Proofs.Statement.Rows
import GraphStore.Sample.Tables

/-!
# Deleted rows

A deletion removes rows or marks them. Both look the same to a select that does not ask for deleted
rows: it finds the rows that it found before, without those that the deletion was about
(`admitted_after_deleteWhere`). This is so whatever the predicates of the two say about the mark
and the timestamp that the deletion overwrites, because a row that has been marked is found by no
predicate, and a row that has not is as it was.
-/

set_option autoImplicit false

namespace GraphStore

open Sqlite (Truth)

/-! ## Executing a statement -/

/-- A row after assignments, the last one to a column counting. -/
def written (set : List Assignment) (t : TableRow) : TableRow :=
  set.foldl (fun t a => Function.update t a.column a.param.value) t

/-- What a statement leaves of a row that was there before: nothing if it is removed. -/
def Statement.leaves (s : Semantics) (st : Statement) (t : TableRow) : Option TableRow :=
  match st with
  | update u => if st.concerns s t then some (written u.set t) else some t
  | delete _ => if st.concerns s t then none else some t
  | _ => some t

/-- The predicate is true on a row of the table of the entity. -/
def Model.finds (s : Semantics) (m : Model) (map : EntityMap) (p : Predicate) (t : TableRow) :
    Bool :=
  p.truth s (m.pathValues map fun c => t c.column) == some true

/-- Items that a change may drop, filtered after the change: those that pass were not changed. -/
theorem filter_filterMap_eq {α : Type} {f : α → Option α} {g h : α → Bool} (xs : List α)
    (changed : ∀ x y, f x = some y → g y = h x) (kept : ∀ x, h x = true → f x = some x) :
    (xs.filterMap f).filter g = xs.filter h := by
  induction xs with
  | nil => rfl
  | cons x xs ih =>
      cases hx : h x with
      | true =>
          have hf := kept x hx
          rw [List.filterMap_cons_some hf, List.filter_cons_of_pos ((changed x x hf).trans hx),
            List.filter_cons_of_pos hx, ih]
      | false =>
          rw [List.filter_cons_of_neg (by simp [hx]), ← ih]
          cases hf : f x with
          | none => rw [List.filterMap_cons_none hf]
          | some y =>
              have dropped : g y = false := (changed x y hf).trans hx
              rw [List.filterMap_cons_some hf, List.filter_cons_of_neg (by simp [dropped])]

/-- A row that a statement is not about stays as it is. -/
theorem Statement.leaves_of_not_concerns {s : Semantics} {st : Statement} {t : TableRow}
    (h : st.concerns s t = false) : st.leaves s t = some t := by
  cases st <;> simp [leaves, h]

/-- A value that was written is not taken for its opposite. -/
theorem Semantics.test_equal_true_false (s : Semantics) :
    s.test .equal (.boolean (some true)) (.boolean (some false)) ≠ some true := by
  intro equal
  obtain ⟨-, -, tied⟩ := s.test_equal_eq_true.mp equal
  rcases s.same_of_tied (v := .boolean (some true)) (w := .boolean (some false)) rfl rfl rfl tied
    with h | h
  · cases h
  · exact absurd h (by decide)

namespace EntityMap

variable {s : Semantics} {map : EntityMap} {filter : Fragment} {context : Context}
  {supply : Supply} {flag : ColumnDef} {t : TableRow}

/-- A row whose mark is set is left out. -/
theorem keeps_of_marked (hflag : map.softDeleteColumn? = some flag)
    (hmark : t flag.name = .boolean (some true)) : map.keeps s t = false := by
  have apart : (s.test .equal (.boolean (some true)) (.boolean (some false)) == some true) =
      false := beq_eq_false_iff_ne.mpr s.test_equal_true_false
  simp only [keeps, hflag, hmark, apart]
  rfl

/-- With distinct column names the timestamp is written beside the mark, not over it. -/
theorem Derived.softDelete_name_ne (hderived : map.Derived)
    (distinct : (map.columns.map (·.name)).Nodup) {column : ColumnDef}
    (hflag : map.softDeleteColumn? = some flag)
    (hcolumn : map.autoTimestampColumn? = some column) : column.name ≠ flag.name := by
  intro equal
  have mem_flag := (Derived.exists_of_role hderived.softDelete hflag).1
  have mem_column := (Derived.exists_of_role hderived.autoTimestamp hcolumn).1
  have same := List.inj_on_of_nodup_map distinct mem_column mem_flag equal
  exact hderived.softDelete_ne hflag (.inr hcolumn) (congrArg ColumnDef.property same)

/-- What becomes of a row that is removed or marked: a select that leaves deleted rows out does not
see it any more. -/
theorem Derived.keeps_of_removeRows (hderived : map.Derived)
    (distinct : (map.columns.map (·.name)).Nodup) {t' : TableRow}
    (hconcerns : (removeRows map filter context supply).1.concerns s t = true)
    (hleaves : (removeRows map filter context supply).1.leaves s t = some t') :
    map.keeps s t' = false := by
  obtain ⟨st, supply', hremoval⟩ : ∃ st supply', removeRows map filter context supply =
      (st, supply') := ⟨_, _, rfl⟩
  rw [hremoval] at hconcerns hleaves
  cases removesRows_of_removeRows hremoval with
  | deleted =>
      rw [Statement.leaves, if_pos hconcerns] at hleaves
      cases hleaves
  | @marked flag hflag =>
      rw [Statement.leaves, if_pos hconcerns] at hleaves
      cases hleaves
      exact keeps_of_marked hflag (Function.update_self flag.name _ t)
  | @stamped flag column hflag htime =>
      rw [Statement.leaves, if_pos hconcerns] at hleaves
      cases hleaves
      have apart := hderived.softDelete_name_ne distinct hflag htime
      exact keeps_of_marked hflag
        ((Function.update_of_ne apart.symm _ _).trans (Function.update_self flag.name _ t))

end EntityMap

section

variable {m : Model} {type : String} {map : EntityMap} {p q : Predicate} {includes : List String}
  {options : SelectOptions} {supply supply' : Supply} {deletion : Statement}
  {select : SelectStatement}

/-- A deletion by a predicate is about the rows on which the predicate is true. -/
theorem Model.concerns_deleteWhere (h : m.deleteWhere map p supply = .ok (deletion, supply')) :
    ∃ filter context, deletion = (removeRows map filter context supply).1 ∧
      ∀ s t, deletion.concerns s t = m.finds s map p t := by
  obtain ⟨⟨filter, context⟩, hfilter, h⟩ := ok_of_bind h
  have removal : removeRows map filter context supply = (deletion, supply') := Except.ok.inj h
  refine ⟨filter, context, by rw [removal], fun s t => ?_⟩
  obtain ⟨⟨f, context'⟩, hf, hlocal⟩ := ok_of_bind hfilter
  have same : filter = f := by
    simp only at hlocal
    split at hlocal
    · cases hlocal
      rfl
    · cases hlocal
  subst same
  obtain ⟨c, hc, truth⟩ := Model.exists_condition_compile hf
  have written := (EntityMap.removesRows_of_removeRows removal).filter?_eq.1
  rw [Statement.concerns, written, Option.any_some,
    Fragment.holds_of_condition? (Fragment.condition?_of_operand hc), truth]
  rfl

/-- **Removed rows and marked rows look the same.** After the rows on which a predicate is true have
been deleted, a select that does not ask for deleted rows admits exactly the rows on which its own
predicate was true before, which were not marked as deleted, and on which the predicate of the
deletion was not true; and the rows on which the latter was not true are as they were. -/
theorem admitted_after_deleteWhere (hmap : m.entityMap type = .ok map)
    (distinct : (map.columns.map (·.name)).Nodup)
    (hdelete : m.deleteWhere map p supply = .ok (deletion, supply')) (hq : q.OfProperties)
    (hselect : m.select map q includes options = .ok select)
    (hdeleted : options.includeDeleted = false) (s : Semantics) (rows : List TableRow) :
    (∀ t, m.finds s map p t = false → deletion.leaves s t = some t) ∧
    (∀ t t' cells, deletion.leaves s t = some t' →
      (∀ name, cells ⟨none, select.label, name⟩ = t' name) →
      (select.filter.isEmpty || select.filter.holds s cells) =
        (m.finds s map q t && map.keeps s t && !m.finds s map p t)) ∧
    (rows.filterMap (deletion.leaves s)).filter
        (fun t => select.filter.isEmpty || select.filter.holds s fun c => t c.column) =
      rows.filter fun t => m.finds s map q t && map.keeps s t && !m.finds s map p t := by
  have hderived := Model.derived_of_entityMap hmap
  obtain ⟨filter, context, rfl, hconcerns⟩ := Model.concerns_deleteWhere hdelete
  have untouched : ∀ t, m.finds s map p t = false →
      (removeRows map filter context supply).1.leaves s t = some t := fun t ht =>
    Statement.leaves_of_not_concerns ((hconcerns s t).trans ht)
  have admits : ∀ t t' cells, (removeRows map filter context supply).1.leaves s t = some t' →
      (∀ name, cells ⟨none, select.label, name⟩ = t' name) →
      (select.filter.isEmpty || select.filter.holds s cells) =
        (m.finds s map q t && map.keeps s t && !m.finds s map p t) := by
    intro t t' cells hleaves hcells
    have whole : (fun name => cells ⟨none, select.label, name⟩) = t' := funext hcells
    rw [admits_of_select hq hselect, whole, hdeleted, EntityMap.selects, Bool.false_or]
    cases hp : m.finds s map p t with
    | true =>
        have gone := hderived.keeps_of_removeRows distinct ((hconcerns s t).trans hp) hleaves
        rw [gone, Bool.and_false, Bool.not_true, Bool.and_false]
    | false =>
        obtain rfl : t = t' := Option.some.inj ((untouched t hp).symm.trans hleaves)
        rw [Bool.not_false, Bool.and_true, Model.finds,
          Model.truth_pathValues (fun _ => rfl) hq]
  refine ⟨untouched, admits, ?_⟩
  refine filter_filterMap_eq rows (fun t t' hleaves => admits t t' _ hleaves fun _ => rfl) ?_
  intro t ht
  rw [Bool.and_eq_true, Bool.not_eq_true'] at ht
  exact untouched t ht.2

end

namespace Sample

/-- A row of the table of books. -/
def storedBook (title : String) : TableRow :=
  cells [("title", .varchar (some title)), ("deleted", .boolean (some false))]

/-- Books of one title are deleted by a mark, and another book is left. -/
theorem admitted_after_deleteWhere_books : ∃ deletion supply' select,
    (model none none).deleteWhere (mapOf book)
      (.compare .equal "title" (.varchar (some "Ode"))) NumberedSupply.supply =
      .ok (deletion, supply') ∧
    (model none none).select (mapOf book)
      (.compare .equal "deleted" (.boolean (some false))) [] {} = .ok select ∧
    (([storedBook "Ode", storedBook "Lamia"].filterMap
      (deletion.leaves Semantics.byContent)).filter fun t => select.filter.isEmpty ||
        select.filter.holds Semantics.byContent fun c => t c.column) = [storedBook "Lamia"] := by
  obtain ⟨deletion, supply', hdelete⟩ : ∃ deletion supply', (model none none).deleteWhere
      (mapOf book) (.compare .equal "title" (.varchar (some "Ode"))) NumberedSupply.supply =
      .ok (deletion, supply') := ⟨_, _, rfl⟩
  obtain ⟨select, hselect⟩ : ∃ select, (model none none).select (mapOf book)
      (.compare .equal "deleted" (.boolean (some false))) [] {} = .ok select := ⟨_, rfl⟩
  have mapped : (model none none).entityMap "sql::Book" = .ok (mapOf book) := rfl
  have left := (admitted_after_deleteWhere mapped (by decide) hdelete
    (fun path hpath => by rw [List.mem_singleton.mp hpath]; decide) hselect rfl
    Semantics.byContent [storedBook "Ode", storedBook "Lamia"]).2.2
  refine ⟨deletion, supply', select, hdelete, hselect, left.trans ?_⟩
  rw [List.filter_cons_of_neg (by decide +kernel), List.filter_cons_of_pos (by decide +kernel),
    List.filter_nil]

end Sample

end GraphStore
