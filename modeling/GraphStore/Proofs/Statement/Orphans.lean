import GraphStore.Proofs.Statement.Acceptance
import GraphStore.Proofs.Statement.Deletion

/-!
# Orphans

The removal of what is no longer in a collection, as it is seen in the table. A row is an orphan if
it belongs to the owner and its key is that of no record that is kept (`EntityMap.Orphaned`); this
is said of the values alone, with nothing unknown about it, since keys are not null. The statement
removes the orphans or marks them, whether it lists the keys that are kept, asks for each of them
in turn, or has none to ask for, and leaves all other rows as they are.
-/

set_option autoImplicit false

namespace GraphStore

open Sqlite (Truth)

/-! ## Rows with the key of a record -/

/-- A comparison of values that are there is known. -/
theorem Semantics.exists_test (s : Semantics) (op : CompareOp) {v w : Value}
    (hv : v.isNull = false) (hw : w.isNull = false) : ∃ b, s.test op v w = some b := by
  refine ⟨op.holds (s.compare v w), ?_⟩
  rw [test, hv, hw]
  rfl

namespace EntityMap

/-- No key column of the row is null. -/
def HasKeyCells (map : EntityMap) (t : TableRow) : Prop :=
  ∀ c ∈ map.keyColumns, (t c.name).isNull = false

/-- The record has a value for every key, none of them null. -/
def HasKeyValues (map : EntityMap) (record : Record) : Prop :=
  ∀ c ∈ map.keyColumns, ∃ v, record.field? c.property = some v ∧ v.isNull = false

/-- The row has the key of the record: in every key column the two are found equal. -/
def SharesKey (s : Semantics) (map : EntityMap) (record : Record) (t : TableRow) : Prop :=
  ∀ c ∈ map.keyColumns, ∃ v, record.field? c.property = some v ∧
    s.test .equal (t c.name) v = some true

/-- The row belongs to the owner and has the key of no record that is kept. -/
structure Orphaned (s : Semantics) (map : EntityMap) (foreign : ColumnDef) (owner : Value)
    (keep : List Record) (t : TableRow) : Prop where
  owned : s.test .equal (t foreign.name) owner = some true
  alone : ∀ record ∈ keep, ¬ map.SharesKey s record t

variable {s : Semantics} {map : EntityMap} {record : Record} {keep : List Record} {t : TableRow}

/-- A row is known to have another key than a record if and only if it does not have its key. -/
theorem hasKeyOf_eq_false (hrow : map.HasKeyCells t) (hrecord : map.HasKeyValues record) :
    map.hasKeyOf s record t = some false ↔ ¬ map.SharesKey s record t := by
  rw [hasKeyOf, Truth.all_eq_false, List.mem_map]
  constructor
  · rintro ⟨c, hc, hdiffers⟩ shares
    obtain ⟨v, hv, hequal⟩ := shares c hc
    rw [hv, Option.getD_some, hequal] at hdiffers
    cases hdiffers
  · intro unshared
    obtain ⟨c, hunshared⟩ := not_forall.mp unshared
    obtain ⟨hc, hdiffers⟩ := Classical.not_imp.mp hunshared
    obtain ⟨v, hv, hnull⟩ := hrecord c hc
    obtain ⟨equal, htest⟩ := s.exists_test .equal (hrow c hc) hnull
    refine ⟨c, hc, ?_⟩
    rw [hv, Option.getD_some, htest]
    -- neither side is null, so what is not found equal is found different
    cases equal with
    | true => exact absurd ⟨v, hv, htest⟩ hdiffers
    | false => rfl

theorem isOrphan_iff {foreign : ColumnDef} {owner : Value} (hrow : map.HasKeyCells t)
    (hkeep : ∀ record ∈ keep, map.HasKeyValues record) :
    map.isOrphan s foreign owner keep t = true ↔ map.Orphaned s foreign owner keep t := by
  rw [isOrphan, Bool.and_eq_true, beq_iff_eq, List.all_eq_true]
  have kept : (∀ record ∈ keep, (map.hasKeyOf s record t == some false) = true) ↔
      ∀ record ∈ keep, ¬ map.SharesKey s record t := by
    refine forall_congr' fun record => forall_congr' fun hmem => ?_
    rw [beq_iff_eq]
    exact hasKeyOf_eq_false hrow (hkeep record hmem)
  rw [kept]
  exact ⟨fun orphan => ⟨orphan.1, orphan.2⟩, fun orphan => ⟨orphan.owned, orphan.alone⟩⟩

/-! ## What is left of a row -/

/-- The row `t'` is `t` with a mark of deletion and, in the timestamp column if there is one, the
time. If both go by one name, which no two columns of a table do, the time is what stays. -/
structure MarksRow (map : EntityMap) (flag : ColumnDef) (time : Timestamp) (t t' : TableRow) :
    Prop where
  mark : (∀ column, map.autoTimestampColumn? = some column → column.name ≠ flag.name) →
    t' flag.name = .boolean (some true)
  stamp : ∀ column, map.autoTimestampColumn? = some column →
    t' column.name = .timestamp (some time)
  others : ∀ name, name ≠ flag.name →
    (∀ column, map.autoTimestampColumn? = some column → name ≠ column.name) → t' name = t name

/-- What is left of the row `t` once it is removed: nothing, or the row with a mark of deletion if
the table has such a column. -/
def Removes (map : EntityMap) (time : Timestamp) (t : TableRow) (left : Option TableRow) : Prop :=
  match map.softDeleteColumn? with
  | none => left = none
  | some flag => ∃ t', left = some t' ∧ map.MarksRow flag time t t'

/-- The rows that a removal is about are removed. -/
theorem removes_leaves {filter : Fragment} {context : Context} {supply supply' : Supply}
    {st : Statement} (hremoval : removeRows map filter context supply = (st, supply'))
    (h : st.concerns s t = true) : map.Removes supply.takeTime.1 t (st.leaves s t) := by
  unfold Removes
  cases removesRows_of_removeRows hremoval with
  | deleted hflag =>
      rw [hflag, Statement.leaves, if_pos h]
  | marked hflag htime =>
      rw [hflag, Statement.leaves, if_pos h]
      refine ⟨_, rfl, ?_⟩
      exact {
        mark := fun _ => Function.update_self ..
        stamp := fun column htime' => by cases htime.symm.trans htime'
        others := fun name hname _ => Function.update_of_ne hname .. }
  | @stamped _ column hflag htime =>
      rw [hflag, Statement.leaves, if_pos h]
      refine ⟨_, rfl, ?_⟩
      exact {
        mark := fun apart =>
          (Function.update_of_ne (apart column htime).symm ..).trans (Function.update_self ..)
        stamp := fun column' htime' => by
          cases htime.symm.trans htime'
          exact Function.update_self ..
        others := fun name hname hother =>
          (Function.update_of_ne (hother column htime) ..).trans
            (Function.update_of_ne hname ..) }

end EntityMap

/-! ## Writing the statement -/

namespace Model

variable {map : EntityMap} {keep : List Record}

theorem exists_readEach (map : EntityMap) {property : String}
    (h : ∀ record ∈ keep, ∃ v, record.field? property = some v) :
    ∃ vs, readEach map property keep = .ok vs := by
  induction keep with
  | nil => exact ⟨[], rfl⟩
  | cons record keep ih =>
      obtain ⟨⟨v, hv⟩, hrest⟩ := List.forall_mem_cons.mp h
      obtain ⟨vs, hvs⟩ := ih hrest
      refine ⟨v :: vs, ?_⟩
      simp only [readEach, EntityMap.read_of_field? hv, ok_bind, hvs]
      rfl

theorem exists_otherThan (hkeyed : map.keys.isEmpty = false)
    (h : ∀ record ∈ keep, map.HasKeyValues record) (context : Context) :
    ∃ f context', otherThan map keep context = .ok (f, context') := by
  induction keep generalizing context with
  | nil => exact ⟨_, _, rfl⟩
  | cons record keep ih =>
      obtain ⟨hrecord, hrest⟩ := List.forall_mem_cons.mp h
      have fields : ∀ c ∈ map.keyColumns, ∃ v, record.field? c.property = some v :=
        fun c hc => (hrecord c hc).imp fun _ hv => hv.1
      obtain ⟨key, context₁, hkey⟩ := EntityMap.exists_keyFilter hkeyed fields context
      obtain ⟨others, context₂, hothers⟩ := ih hrest context₁
      refine ⟨.ofText " AND NOT (" ++ key ++ .ofText ")" ++ others, context₂, ?_⟩
      simp only [otherThan, hkey, ok_bind, hothers]
      rfl

/-- The keys that are kept can be written if they can be read, in either form. -/
theorem exists_notAmong (hkeyed : map.keys.isEmpty = false)
    (h : ∀ record ∈ keep, map.HasKeyValues record) (context : Context) :
    ∃ f context', notAmong map keep context = .ok (f, context') := by
  unfold notAmong
  split
  next column hcolumns =>
    split
    · exact ⟨_, _, rfl⟩
    · have single : column ∈ map.keyColumns := by
        rw [hcolumns]
        exact List.mem_singleton_self column
      have fields : ∀ record ∈ keep, ∃ v, record.field? column.property = some v :=
        fun record hmem => (h record hmem column single).imp fun _ hv => hv.1
      obtain ⟨vs, hvs⟩ := exists_readEach map fields
      rw [hvs, ok_bind]
      exact ⟨_, _, rfl⟩
  next => exact exists_otherThan hkeyed h context

/-- The statement is built, and it is a removal of rows of the target. -/
theorem exists_deleteOrphans {m : Model} {r : RelationDef} {target : EntityMap}
    {foreign : ColumnDef} (hkind : r.kind = .oneToMany) (htarget : m.target r = .ok target)
    (hkeyed : target.keys.isEmpty = false) (hforeign : target.column? r.foreignKey = some foreign)
    (hkeep : ∀ record ∈ keep, target.HasKeyValues record) (owner : Value) (supply : Supply) :
    ∃ filter context,
      m.deleteOrphans r owner keep supply = .ok (removeRows target filter context supply) := by
  obtain ⟨kept, context, hkept⟩ := exists_notAmong hkeyed hkeep
    (equalTest target.table.name foreign owner { qualify := false }).2
  have keys : target.requireKeys = .ok () := by
    rw [EntityMap.requireKeys, hkeyed]
    rfl
  have column : target.column r.foreignKey = .ok foreign := by
    rw [EntityMap.column, hforeign]
    rfl
  refine ⟨(equalTest target.table.name foreign owner { qualify := false }).1 ++ kept, context, ?_⟩
  unfold deleteOrphans
  rw [if_neg (by simp [hkind])]
  simp only [htarget, keys, column, hkept, ok_bind]
  rfl

/-- **Exactly the orphans are removed.** For a collection of keyed rows and any records of it that
are kept, each with all its keys, the statement is built and is about the table of the target. On
every row whose keys are not null it is about the orphans and no others: an orphan is removed, or
on tables with a mark of deletion has nothing written to it but the mark and the time, and any
other row is left as it is. -/
theorem exactly_orphans_removed {m : Model} {r : RelationDef} {target : EntityMap}
    {foreign : ColumnDef} (hkind : r.kind = .oneToMany) (htarget : m.target r = .ok target)
    (hkeyed : target.keys.isEmpty = false) (hforeign : target.column? r.foreignKey = some foreign)
    (hkeep : ∀ record ∈ keep, target.HasKeyValues record) (owner : Value) (supply : Supply) :
    ∃ st supply', m.deleteOrphans r owner keep supply = .ok (st, supply') ∧
      st.table = target.table ∧
      ∀ (s : Semantics) (t : TableRow), target.HasKeyCells t →
        (st.concerns s t = true ↔ target.Orphaned s foreign owner keep t) ∧
        (target.Orphaned s foreign owner keep t →
          target.Removes supply.takeTime.1 t (st.leaves s t)) ∧
        (¬ target.Orphaned s foreign owner keep t → st.leaves s t = some t) := by
  obtain ⟨filter, context, hbuilt⟩ :=
    exists_deleteOrphans hkind htarget hkeyed hforeign hkeep owner supply
  obtain ⟨st, supply', hremoval⟩ : ∃ st supply', removeRows target filter context supply =
    (st, supply') := ⟨_, _, rfl⟩
  rw [hremoval] at hbuilt
  obtain ⟨target', foreign', htarget', hforeign', htable, hconcerns⟩ :=
    concerns_deleteOrphans hbuilt
  cases htarget.symm.trans htarget'
  cases hforeign.symm.trans hforeign'
  refine ⟨st, supply', hbuilt, htable, fun s t hrow => ?_⟩
  have orphans : st.concerns s t = true ↔ target.Orphaned s foreign owner keep t := by
    rw [hconcerns]
    exact EntityMap.isOrphan_iff hrow hkeep
  refine ⟨orphans, fun orphan => EntityMap.removes_leaves hremoval (orphans.mpr orphan),
    fun kept => ?_⟩
  refine Statement.leaves_of_not_concerns ?_
  rw [← Bool.not_eq_true, orphans]
  exact kept

end Model

namespace Sample

/-- The books of an author. -/
def authorsBooks : RelationDef := ⟨"books", .oneToMany, "lib::Book", "id", "author_id", false⟩

/-- A book that was stored. -/
def storedBookNumber (n : Int32) : Record :=
  Conformance.Library.book.prototype.withValue "id" (.int32 (some n))

theorem hasKeyValues_storedBookNumber (n : Int32) :
    (mapOf Conformance.Library.book).HasKeyValues (storedBookNumber n) := by
  have keys : (mapOf Conformance.Library.book).keyColumns = [bookKey] := rfl
  intro c hc
  rw [keys, List.mem_singleton] at hc
  subst hc
  exact ⟨_, rfl, rfl⟩

theorem hasKeyCells_bookRow : (mapOf Conformance.Library.book).HasKeyCells bookRow := by
  have keys : (mapOf Conformance.Library.book).keyColumns = [bookKey] := rfl
  intro c hc
  rw [keys, List.mem_singleton] at hc
  subst hc
  rfl

/-- The book is not the second one. -/
theorem orphaned_bookRow : (mapOf Conformance.Library.book).Orphaned Semantics.byContent
    ⟨"author_id", "author_id", .uuid (some .nil), false, .none, true, true⟩ (identifier 1)
    [storedBookNumber 2] bookRow := by
  refine ⟨by decide +kernel, fun record hrecord shares => ?_⟩
  cases List.mem_singleton.mp hrecord
  obtain ⟨v, hv, hequal⟩ := shares bookKey (by decide +kernel)
  cases hv
  exact absurd hequal (by decide +kernel)

end Sample

/-- An author has another book than the one that is kept, which is marked as removed. -/
theorem exactly_orphans_removed_books : ∃ st supply' t',
    (Sample.model none none).deleteOrphans Sample.authorsBooks (Sample.identifier 1)
      [Sample.storedBookNumber 2] NumberedSupply.supply = .ok (st, supply') ∧
    st.leaves Semantics.byContent Sample.bookRow = some t' ∧
    t' "removed" = .boolean (some true) ∧ t' "title" = .varchar (some "Ode") := by
  have target : (Sample.model none none).target Sample.authorsBooks =
      .ok (Sample.mapOf Conformance.Library.book) := rfl
  have kept : ∀ record ∈ [Sample.storedBookNumber 2],
      (Sample.mapOf Conformance.Library.book).HasKeyValues record := by
    intro record hrecord
    cases List.mem_singleton.mp hrecord
    exact Sample.hasKeyValues_storedBookNumber 2
  obtain ⟨st, supply', hbuilt, -, rows⟩ := Model.exactly_orphans_removed rfl target rfl rfl kept
    (Sample.identifier 1) NumberedSupply.supply
  obtain ⟨-, removed, -⟩ := rows Semantics.byContent Sample.bookRow Sample.hasKeyCells_bookRow
  obtain ⟨t', hleaves, marks⟩ := removed Sample.orphaned_bookRow
  refine ⟨st, supply', t', hbuilt, hleaves, marks.mark fun column hcolumn => ?_, ?_⟩
  · cases hcolumn
    decide
  · refine (marks.others "title" (by decide) fun column hcolumn => ?_).trans rfl
    cases hcolumn
    decide

end GraphStore
