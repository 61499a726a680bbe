import GraphStore.Proofs.Model.Derived
import GraphStore.Proofs.Predicate.Compiled
import GraphStore.Proofs.Sql.Evaluation
import GraphStore.Proofs.Statement.Insert
import GraphStore.Statement.Delete

/-!
# Rows that a statement is about

An update or a deletion is about the rows on which its filter is true (`Statement.concerns`). The
filter of a record asks for its key, and the removal of what is no longer in a collection asks for
the key of the owner and for none of the keys that are kept. The three forms in which the latter
is written have one meaning (`concerns_deleteOrphans`).
-/

set_option autoImplicit false

namespace GraphStore

open Fragment
open Sqlite (Truth)

/-- The condition that says which rows a statement changes or removes. -/
def Statement.filter? : Statement → Option Fragment
  | update st => some st.filter
  | delete st => some st.filter
  | _ => none

/-- Whether a row of its table is one of those that the statement changes or removes. -/
def Statement.concerns (s : Semantics) (st : Statement) (t : TableRow) : Bool :=
  st.filter?.any (Fragment.holds s fun c => t c.column)

namespace EntityMap

variable (s : Semantics) (map : EntityMap)

/-- Whether the row has the key of the record: every key column holds what the record does. -/
def hasKeyOf (record : Record) (t : TableRow) : Truth :=
  Truth.all (map.keyColumns.map fun c =>
    s.test .equal (t c.name) ((record.field? c.property).getD .null))

/-- Whether the row belongs to `owner` by the column `foreign`, and is known to have another key
than every record of `keep`. -/
def isOrphan (foreign : ColumnDef) (owner : Value) (keep : List Record) (t : TableRow) : Bool :=
  s.test .equal (t foreign.name) owner == some true &&
    keep.all fun record => map.hasKeyOf s record t == some false

variable {s map}

/-- A row with the key of a record that is kept is no orphan. -/
theorem isOrphan_of_hasKeyOf {foreign : ColumnDef} {owner : Value} {keep : List Record}
    {record : Record} {t : TableRow} (hmem : record ∈ keep)
    (hkey : map.hasKeyOf s record t = some true) : map.isOrphan s foreign owner keep t = false := by
  have kept : (keep.all fun record => map.hasKeyOf s record t == some false) = false :=
    List.all_eq_false.mpr ⟨record, hmem, by simp [hkey]⟩
  simp [isOrphan, kept]

end EntityMap

/-! ## Removing rows -/

/-- How rows are removed: they are deleted, or they are marked as deleted, and stamped with the time
where there is a column for it. -/
inductive EntityMap.RemovesRows (map : EntityMap) (filter : Fragment) (context : Context)
    (supply : Supply) : Statement → Supply → Prop where
  | deleted (hflag : map.softDeleteColumn? = none) :
      RemovesRows map filter context supply (.delete ⟨map.table, filter⟩) supply
  | marked {flag : ColumnDef} (hflag : map.softDeleteColumn? = some flag)
      (htime : map.autoTimestampColumn? = none) :
      RemovesRows map filter context supply
        (.update ⟨map.table, [(assign flag (.boolean (some true)) context).1], filter⟩) supply
  | stamped {flag column : ColumnDef} (hflag : map.softDeleteColumn? = some flag)
      (htime : map.autoTimestampColumn? = some column) :
      RemovesRows map filter context supply
        (.update ⟨map.table, [(assign flag (.boolean (some true)) context).1,
          (assign column (.timestamp (some supply.takeTime.1))
            (assign flag (.boolean (some true)) context).2).1], filter⟩) supply.takeTime.2

theorem EntityMap.removesRows_of_removeRows {map : EntityMap} {filter : Fragment}
    {context : Context} {supply supply' : Supply} {st : Statement}
    (h : removeRows map filter context supply = (st, supply')) :
    map.RemovesRows filter context supply st supply' := by
  unfold removeRows at h
  cases hflag : map.softDeleteColumn? with
  | none =>
      simp only [hflag] at h
      cases h
      exact .deleted hflag
  | some flag =>
      cases htime : map.autoTimestampColumn? with
      | none =>
          simp only [hflag, htime] at h
          cases h
          exact .marked hflag htime
      | some column =>
          simp only [hflag, htime] at h
          cases h
          exact .stamped hflag htime

/-- A removal is about the rows under its filter. -/
theorem EntityMap.RemovesRows.filter?_eq {map : EntityMap} {filter : Fragment} {context : Context}
    {supply supply' : Supply} {st : Statement}
    (h : map.RemovesRows filter context supply st supply') :
    st.filter? = some filter ∧ st.table = map.table := by
  cases h <;> exact ⟨rfl, rfl⟩

/-! ## Key columns -/

/-- The key columns are the columns that are keys. -/
theorem EntityMap.Derived.keyColumns_eq {map : EntityMap} (h : map.Derived) :
    map.keyColumns = map.columns.filter (·.isKey) := by
  rw [keyColumns, h.keys_eq, EntityType.keyPositions, List.filterMap_map]
  have here : ∀ p ∈ map.columns.zipIdx.filter (·.1.isKey),
      ((map.columns[·]?) ∘ (·.2)) p = some p.1 := fun p hp =>
    List.mk_mem_zipIdx_iff_getElem?.mp (List.mem_filter.mp hp).1
  rw [List.filterMap_congr here, List.filterMap_eq_map']
  have unzip : map.columns.filter (·.isKey) =
      (map.columns.zipIdx.map Prod.fst).filter (·.isKey) := by rw [List.zipIdx_map_fst]
  rw [unzip, List.filter_map]
  rfl

theorem EntityMap.Derived.mem_keyColumns {map : EntityMap} {c : ColumnDef} (h : map.Derived) :
    c ∈ map.keyColumns ↔ c ∈ map.columns ∧ c.isKey = true := by
  rw [h.keyColumns_eq, List.mem_filter]

/-- A map that requires keys has a key column. -/
theorem EntityMap.Derived.keyColumns_ne_nil {map : EntityMap} (h : map.Derived)
    (hkeys : map.requireKeys = .ok ()) : map.keyColumns ≠ [] := by
  intro none
  have nonempty : map.keys ≠ [] := by
    intro equal
    simp [requireKeys, equal, fail] at hkeys
  rw [h.keyColumns_eq, List.filter_eq_nil_iff] at none
  rw [h.keys_eq, EntityType.keyPositions, ne_eq, List.map_eq_nil_iff, List.filter_eq_nil_iff]
    at nonempty
  exact nonempty fun p hp => none p.1 (List.fst_mem_of_mem_zipIdx hp)

/-! ## Filters of records -/

section Filters

variable {s : Semantics} {row : Valuation} {map : EntityMap} {record : Record}
  {context context' : Context}

theorem isOperand_equalTest (s : Semantics) (row : Valuation) (context : Context) (table : String)
    (c : ColumnDef) (v : Value) :
    (equalTest table c v context).1.IsOperand s row
      (s.test .equal (row ⟨none, table, c.name⟩) v) :=
  isOperand_test s row .equal ⟨none, table, c.name⟩ ⟨(context.paramName c.name).1, v⟩

theorem isOperand_keyTests (s : Semantics) (row : Valuation) {cs : List ColumnDef}
    {fs : List Fragment}
    (h : map.keyTests record cs context = .ok (fs, context')) :
    List.Forall₂ (fun f t => f.IsOperand s row t) fs (cs.map fun c =>
      s.test .equal (row ⟨none, map.table.name, c.name⟩)
        ((record.field? c.property).getD .null)) := by
  induction cs generalizing context fs with
  | nil =>
      cases h
      exact .nil
  | cons c cs ih =>
      unfold EntityMap.keyTests at h
      obtain ⟨v, hv, h₁⟩ := ok_of_bind h
      obtain ⟨⟨gs, context₁⟩, hgs, h₂⟩ := ok_of_bind h₁
      cases h₂
      refine .cons ?_ (ih hgs)
      simp only [EntityMap.read_eq_ok hv, Option.getD_some]
      exact isOperand_equalTest s row context map.table.name c v

/-- The filter of a record asks for its key. -/
theorem exists_reads_keyFilter {f : Fragment} (hderived : map.Derived)
    (h : map.keyFilter record context = .ok (f, context')) (s : Semantics) (t : TableRow) :
    ∃ c, Reads .conjunction f.lexemes c ∧
      c.truth s (fun c => t c.column) = map.hasKeyOf s record t := by
  unfold EntityMap.keyFilter at h
  obtain ⟨_, hkeys, h₁⟩ := ok_of_bind h
  obtain ⟨⟨fs, context₁⟩, hfs, h₂⟩ := ok_of_bind h₁
  cases h₂
  have tests := isOperand_keyTests s (fun c => t c.column) hfs
  unfold EntityMap.hasKeyOf
  cases hcs : map.keyColumns with
  | nil => exact absurd hcs (hderived.keyColumns_ne_nil hkeys)
  | cons c cs =>
      rw [hcs] at tests
      cases tests with
      | cons hf hfs => exact reads_joined s _ .and hf hfs

/-- A conjunction of conditions holds where it is true. -/
theorem Fragment.holds_of_reads {f : Fragment} {c : Condition} {t : Truth}
    (hc : Reads .conjunction f.lexemes c) (ht : c.truth s row = t) :
    f.holds s row = (t == some true) := by
  rw [Fragment.holds_of_condition? (Fragment.condition?_eq_some_iff.mpr (.ofConjunction hc)), ht]

end Filters

/-! ## Updating a row -/

/-- The columns that an update writes: all that may be written or, when fields are given, those of
the fields and the auto timestamp. -/
def EntityMap.written (map : EntityMap) (fields : Option (List String)) : List ColumnDef :=
  map.columns.filter fun c => c.isWritable && match fields with
    | none => true
    | some fields => fields.contains c.property ||
        map.autoTimestampColumn?.map (·.property) == some c.property

/-- The statement updates the row of the record: it writes what the record holds to the row with
its key. -/
structure EntityMap.UpdatesRow (map : EntityMap) (fields : Option (List String)) (record : Record)
    (st : UpdateStatement) : Prop where
  table_eq : st.table = map.table
  set_eq : st.set.map (fun a => (a.column, some a.param.value)) =
    (map.written fields).map fun c => (c.name, record.field? c.property)
  concerns_eq : ∀ s t, (Statement.update st).concerns s t = (map.hasKeyOf s record t == some true)

namespace Edit

variable {map : EntityMap} {b b' : Bench}

/-- The steps by which an update comes about. -/
theorem steps_of_update {fields : Option (List String)} {st : UpdateStatement}
    (h : update map fields b = .ok st b') :
    map.hasEmptyKey b.record = .ok false ∧ map.checkFields (fields.getD []) = .ok () ∧
    st.set ≠ [] ∧
    ∃ stamped context context', stamp map b = .ok stamped b' ∧ st.table = map.table ∧
      map.assignments b'.record
        (map.columns.filter fun c => c.isWritable && match fields with
          | none => true
          | some fields => fields.contains c.property || stamped == some c.property)
        { qualify := false } = .ok (st.set, context) ∧
      map.keyFilter b'.record context = .ok (st.filter, context') := by
  unfold update at h
  obtain ⟨record, b₁, hrecord, h₁⟩ := ends_of_bind h
  cases hrecord
  obtain ⟨empty, b₂, hempty, h₂⟩ := ends_of_bind h₁
  obtain ⟨hempty, rfl⟩ := ok_of_ofExcept hempty
  by_cases hkeyless : empty = true
  · rw [if_pos hkeyless] at h₂
    cases h₂
  · rw [if_neg hkeyless] at h₂
    obtain ⟨_, b₃, hcheck, h₃⟩ := ends_of_bind h₂
    obtain ⟨hfields, rfl⟩ := ok_of_ofExcept hcheck
    obtain ⟨stamped, b₄, hstamp, h₄⟩ := ends_of_bind h₃
    obtain ⟨record, b₅, hrecord, h₅⟩ := ends_of_bind h₄
    cases hrecord
    obtain ⟨⟨set, context⟩, b₆, hset, h₆⟩ := ends_of_bind h₅
    obtain ⟨hset, rfl⟩ := ok_of_ofExcept hset
    by_cases hnone : set.isEmpty = true
    · simp only [hnone, if_true] at h₆
      cases h₆
    · simp only [hnone, Bool.false_eq_true, if_false] at h₆
      obtain ⟨record, b₇, hrecord, h₇⟩ := ends_of_bind h₆
      cases hrecord
      obtain ⟨⟨filter, context'⟩, b₈, hfilter, h₈⟩ := ends_of_bind h₇
      obtain ⟨hfilter, rfl⟩ := ok_of_ofExcept hfilter
      cases h₈
      have some_set : set ≠ [] := fun none => hnone (List.isEmpty_iff.mpr none)
      exact ⟨by simpa [hkeyless] using hempty, hfields, some_set, stamped, context, context',
        hstamp, rfl, hset, hfilter⟩

/-- An update is described by the record that the edit leaves behind. -/
theorem ok_of_update {fields : Option (List String)} {st : UpdateStatement} (hderived : map.Derived)
    (h : update map fields b = .ok st b') :
    map.hasEmptyKey b.record = .ok false ∧ OnlyFields b.record b'.record ∧
      map.UpdatesRow fields b'.record st := by
  obtain ⟨present, -, -, stamped, context, context', hstamp, htable, hset, hfilter⟩ :=
    steps_of_update h
  refine ⟨present, (assignsAt_of_stamp hstamp).onlyFields, htable, ?_, fun s t => ?_⟩
  · rw [EntityMap.values_of_assignments hset, stamped_of_stamp hstamp]
    rfl
  · obtain ⟨c, hc, truth⟩ := exists_reads_keyFilter hderived hfilter s t
    exact Fragment.holds_of_reads hc truth

/-- The steps by which a deletion comes about. What the row is only marked with, the record is
given too. -/
theorem steps_of_delete {st : Statement} (h : delete map b = .ok st b') :
    map.hasEmptyKey b.record = .ok false ∧
    ∃ filter context supply,
      map.keyFilter b.record { qualify := false } = .ok (filter, context) ∧
      removeRows map filter context b.supply = (st, supply) ∧
      ((∃ s, st = .update s ∧ follow map s.set { b with supply } = .ok () b') ∨
        ((∀ s, st ≠ .update s) ∧ b' = { b with supply })) := by
  unfold delete at h
  obtain ⟨record, b₁, hrecord, h₁⟩ := ends_of_bind h
  cases hrecord
  obtain ⟨empty, b₂, hempty, h₂⟩ := ends_of_bind h₁
  obtain ⟨hempty, rfl⟩ := ok_of_ofExcept hempty
  by_cases hkeyless : empty = true
  · rw [if_pos hkeyless] at h₂
    cases h₂
  · rw [if_neg hkeyless] at h₂
    obtain ⟨record, b₃, hrecord, h₃⟩ := ends_of_bind h₂
    cases hrecord
    obtain ⟨⟨filter, context⟩, b₄, hfilter, h₄⟩ := ends_of_bind h₃
    obtain ⟨hfilter, rfl⟩ := ok_of_ofExcept hfilter
    obtain ⟨statement, b₅, hremove, h₅⟩ := ends_of_bind h₄
    obtain ⟨removed, supply, hremoved⟩ : ∃ removed supply,
      removeRows map filter context b₄.supply = (removed, supply) := ⟨_, _, rfl⟩
    rw [remove, hremoved] at hremove
    cases hremove
    have same : st = statement ∧
        ((∃ s, statement = .update s ∧ follow map s.set { b₄ with supply } = .ok () b') ∨
          ((∀ s, statement ≠ .update s) ∧ b' = { b₄ with supply })) := by
      split at h₅
      next s =>
        obtain ⟨_, b₆, hfollow, h₆⟩ := ends_of_bind h₅
        cases h₆
        exact ⟨rfl, .inl ⟨s, rfl, hfollow⟩⟩
      next other =>
        cases h₅
        exact ⟨rfl, .inr ⟨other, rfl⟩⟩
    obtain ⟨rfl, hfollow⟩ := same
    exact ⟨by simpa [hkeyless] using hempty, filter, context, supply, hfilter, hremoved, hfollow⟩

end Edit

/-! ## Carrying on a conjunction -/

/-- The lexemes carry on a conjunction with further conditions, of the truth `t` together. -/
def CarriesOn (s : Semantics) (row : Valuation) (ls : List Lexeme) (t : Truth) : Prop :=
  ∀ ls₀ c, Reads .negation ls₀ c →
    ∃ d, Reads .conjunction (ls₀ ++ ls) d ∧ d.truth s row = (c.truth s row).and t

section CarryingOn

variable {s : Semantics} {row : Valuation}

theorem carriesOn_nil : CarriesOn s row [] (some true) := by
  intro ls₀ c hc
  refine ⟨c, ?_, (Truth.and_true _).symm⟩
  rw [List.append_nil]
  exact .ofNegation hc

theorem CarriesOn.cons {ls ls' : List Lexeme} {c : Condition} {t : Truth}
    (h : CarriesOn s row ls' t) (hc : Reads .negation ls c) :
    CarriesOn s row (.and :: (ls ++ ls')) ((c.truth s row).and t) := by
  intro ls₀ c₀ hc₀
  obtain ⟨d, hd, truth⟩ := h ls c hc
  exact ⟨.and c₀ d, .and hc₀ hd, by rw [Condition.truth, truth]⟩

end CarryingOn

namespace Model

variable {map target : EntityMap} {keep : List Record} {context context' : Context}
  {f : Fragment}

/-- Every record's condition is the negation of its filter in parentheses. -/
theorem carriesOn_otherThan (hderived : map.Derived)
    (h : otherThan map keep context = .ok (f, context')) (s : Semantics) (t : TableRow) :
    CarriesOn s (fun c => t c.column) f.lexemes
      (Truth.all (keep.map fun record => (map.hasKeyOf s record t).not)) := by
  induction keep generalizing context f with
  | nil =>
      cases h
      exact carriesOn_nil
  | cons record keep ih =>
      unfold otherThan at h
      obtain ⟨⟨key, context₁⟩, hkey, h₁⟩ := ok_of_bind h
      obtain ⟨⟨others, context₂⟩, hothers, h₂⟩ := ok_of_bind h₁
      cases h₂
      obtain ⟨c, hc, truth⟩ := exists_reads_keyFilter hderived hkey s t
      have opening : (ofText " AND NOT (").lexemes = [.and, .not, .opening] := by decide
      have closing : (ofText ")").lexemes = [.closing] := by decide
      have closes : (ofText " AND NOT (" ++ key ++ ofText ")").ClosesApart :=
        (closesApart_ofText (by decide)).append (by simp) _
      rw [lexemes_append (.inl closes), lexemes_append_text (by decide),
        lexemes_text_append (by decide), opening, closing]
      have negated : Reads .negation (.not :: .opening :: (key.lexemes ++ [.closing])) (.not c) :=
        .not (.ofOperand (.parentheses (.ofConjunction hc)))
      have := (ih hothers).cons negated
      rw [Condition.truth, truth] at this
      simpa using this

theorem values_of_readEach {property : String} {vs : List Value}
    (h : readEach map property keep = .ok vs) :
    vs = keep.map fun record => (record.field? property).getD .null := by
  induction keep generalizing vs with
  | nil =>
      cases h
      rfl
  | cons record keep ih =>
      unfold readEach at h
      obtain ⟨v, hv, h₁⟩ := ok_of_bind h
      obtain ⟨vs', hvs', h₂⟩ := ok_of_bind h₁
      cases h₂
      rw [List.map_cons, EntityMap.read_eq_ok hv, ih hvs']
      rfl

/-- A list of the keys that are kept says the same as a condition for each of them. -/
theorem carriesOn_notAmong (hderived : map.Derived)
    (h : notAmong map keep context = .ok (f, context')) (s : Semantics) (t : TableRow) :
    CarriesOn s (fun c => t c.column) f.lexemes
      (Truth.all (keep.map fun record => (map.hasKeyOf s record t).not)) := by
  unfold notAmong at h
  split at h
  next c hcolumns =>
    cases keep with
    | nil =>
        cases h
        exact carriesOn_nil
    | cons record keep =>
        obtain ⟨vs, hvs, h₁⟩ := ok_of_bind h
        cases h₁
        obtain ⟨ps, hps, hvalues⟩ := exists_bindEach c.name vs context
        have values := hvalues.trans (values_of_readEach hvs)
        have nonempty : ps ≠ [] := by
          rintro rfl
          cases values
        obtain ⟨d, hd, truth⟩ := isOperand_among s (fun c => t c.column) true
          ⟨none, map.table.name, c.name⟩ nonempty
        have sign : (ofText " AND ").lexemes = [.and] := by decide
        have regroup : (ofText " AND " ++ ofColumn ⟨none, map.table.name, c.name⟩ ++
            ofText " NOT IN (" ++ joined ", " (ps.map ofParam) ++ ofText ")").lexemes =
            .and :: (ofColumn ⟨none, map.table.name, c.name⟩ ++ ofText (inText true) ++
              joined ", " (ps.map ofParam) ++ ofText ")").lexemes := by
          rw [← List.singleton_append, ← sign, ← lexemes_text_append (by decide)]
          simp only [lexemes, glyphs_append, List.append_assoc]
          rfl
        have ends : CarriesOn s (fun c => t c.column) [] (some true) := carriesOn_nil
        have carries := ends.cons (.ofOperand hd)
        rw [hps, regroup]
        -- being none of the keys in the list is to differ from each of them
        have apart (ts : List Truth) : (Truth.any ts).not = Truth.all (ts.map Truth.not) :=
          Truth.not_connect .or ts
        rw [truth, List.append_nil, Truth.and_true, values, negatedIf_true, Semantics.member,
          apart, List.map_map, List.map_map] at carries
        simpa [EntityMap.hasKeyOf, hcolumns, Function.comp_def] using carries
  next => exact carriesOn_otherThan hderived h s t

/-! ## Removing orphans -/

/-- The steps by which the removal of orphans comes about. -/
theorem steps_of_deleteOrphans {m : Model} {r : RelationDef} {owner : Value}
    {supply supply' : Supply} {st : Statement}
    (h : m.deleteOrphans r owner keep supply = .ok (st, supply')) :
    ∃ target foreign kept context, m.target r = .ok target ∧
      target.column r.foreignKey = .ok foreign ∧
      notAmong target keep
        (equalTest target.table.name foreign owner { qualify := false }).2 = .ok (kept, context) ∧
      removeRows target ((equalTest target.table.name foreign owner { qualify := false }).1 ++ kept)
        context supply = (st, supply') := by
  unfold deleteOrphans at h
  obtain ⟨-, h₁⟩ := ok_of_check h
  obtain ⟨target, htarget, h₂⟩ := ok_of_bind h₁
  obtain ⟨_, -, h₃⟩ := ok_of_bind h₂
  obtain ⟨foreign, hforeign, h₄⟩ := ok_of_bind h₃
  obtain ⟨⟨kept, context⟩, hkept, h₅⟩ := ok_of_bind h₄
  exact ⟨target, foreign, kept, context, htarget, hforeign, hkept, Except.ok.inj h₅⟩

/-- **What is no longer in a collection is removed.** The statement is about exactly the rows of
the owner that are known to have none of the keys that are kept. -/
theorem concerns_deleteOrphans {m : Model} {r : RelationDef} {owner : Value}
    {supply supply' : Supply} {st : Statement}
    (h : m.deleteOrphans r owner keep supply = .ok (st, supply')) :
    ∃ target foreign, m.target r = .ok target ∧ target.column? r.foreignKey = some foreign ∧
      st.table = target.table ∧
      ∀ s t, st.concerns s t = target.isOrphan s foreign owner keep t := by
  obtain ⟨target, foreign, kept, context, htarget, hforeign, hkept, removal⟩ :=
    steps_of_deleteOrphans h
  have hderived := derived_of_entityMap htarget
  obtain ⟨hfilter, htable⟩ := (EntityMap.removesRows_of_removeRows removal).filter?_eq
  refine ⟨target, foreign, htarget, ok_of_orFail hforeign, htable, fun s t => ?_⟩
  -- the test of the owner, carried on by what is kept
  obtain ⟨c, hc, truth⟩ := isOperand_equalTest s (fun c => t c.column) { qualify := false }
    target.table.name foreign owner
  obtain ⟨d, hd, truth'⟩ := carriesOn_notAmong hderived hkept s t _ c (.ofOperand hc)
  rw [truth] at truth'
  have closes : (equalTest target.table.name foreign owner { qualify := false }).1.ClosesApart :=
    (closesApart_ofParam _).append (by simp) _
  rw [← lexemes_append (.inl closes)] at hd
  rw [Statement.concerns, hfilter, Option.any_some, Fragment.holds_of_reads hd truth',
    Truth.and_beq_true, EntityMap.isOrphan, Truth.all_beq_true, List.all_map]
  simp only [Function.comp_def, Truth.not_beq_true]

end Model

end GraphStore
