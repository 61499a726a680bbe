import GraphStore.Proofs.Model.Identity
import GraphStore.Proofs.Predicate.Compiled
import GraphStore.Proofs.Statement.Bindings
import GraphStore.Proofs.Statement.Rows
import GraphStore.Proofs.Statement.Select
import GraphStore.Record.NumberedSupply

/-!
# The names of parameters

Every statement that is built (`Model.Builds`) has conditions that are written well, and its
parameters have the numbers from zero on, each once (`wellWritten_of_builds`): predicates are
compiled one part after another, and what is set beside a filter goes on counting after it. A number
can be read off the name it is part of, whatever the column is called, so that all names are
different (`names_nodup_of_builds`).
-/

set_option autoImplicit false

namespace GraphStore

open Fragment

/-- The statements about the rows of entities, and the removal of their tables. -/
inductive Model.Builds (m : Model) : Statement → Prop where
  | select {map : EntityMap} {p : Predicate} {includes : List String} {options : SelectOptions}
      {st : SelectStatement} (built : m.select map p includes options = .ok st) :
      Builds m (.select st)
  | insert {map : EntityMap} {forced : Bool} {b b' : Bench} {st : InsertStatement}
      (built : Edit.insert map forced b = .ok (some st) b') : Builds m (.insert st)
  | update {map : EntityMap} {fields : Option (List String)} {b b' : Bench} {st : UpdateStatement}
      (built : Edit.update map fields b = .ok st b') : Builds m (.update st)
  | delete {map : EntityMap} {b b' : Bench} {st : Statement}
      (built : Edit.delete map b = .ok st b') : Builds m st
  | deleteWhere {map : EntityMap} {p : Predicate} {supply supply' : Supply} {st : Statement}
      (built : m.deleteWhere map p supply = .ok (st, supply')) : Builds m st
  | deleteOrphans {relation : RelationDef} {owner : Value} {keep : List Record}
      {supply supply' : Supply} {st : Statement}
      (built : m.deleteOrphans relation owner keep supply = .ok (st, supply')) : Builds m st
  | dropTable (map : EntityMap) (ifExists : Bool) : Builds m (.dropTable (map.dropTable ifExists))

/-! ## Predicates -/

/-- The parameters of a list are numbered from the place where it is bound. -/
theorem numbered_bindEach (column : String) (vs : List Value) (context : Context) :
    ∃ ps : List Param, (bindEach column vs context).1 = ps.map ofParam ∧
      (bindEach column vs context).2.counter = context.counter + UInt32.ofNat ps.length ∧
      List.Forall₂ (fun n p => p.name = numberedName column n)
        (countsFrom context.counter ps.length) ps := by
  induction vs generalizing context with
  | nil => exact ⟨[], rfl, (UInt32.add_zero context.counter).symm, .nil⟩
  | cons v vs ih =>
      obtain ⟨ps, hps, hcount, hnames⟩ := ih (bindParam column v context).2
      refine ⟨⟨numberedName column context.counter, v⟩ :: ps, ?_, ?_, ?_⟩
      · rw [List.map_cons, ← hps]
        rfl
      · rw [List.length_cons, count_succ]
        exact hcount
      · rw [List.length_cons, countsFrom]
        exact .cons rfl hnames

theorem isCondition_constant (b : Bool) (a : UInt32) :
    (ofText (constantText b)).IsCondition a a :=
  isCondition_ofText _ (by cases b <;> decide) a

theorem isCondition_connect (op : LogicalOp) {a b : UInt32} {fs : List Fragment}
    (h : AreConditions a fs b) : (connect op fs).IsCondition a b := by
  cases h with
  | nil a => exact isCondition_constant _ a
  | cons hf hfs =>
      cases hfs with
      | nil b => exact hf
      | cons hg hgs =>
          have separator : joins op.sql = true := by cases op <;> decide
          exact (IsCondition.joined op.sql separator (.cons hf (.cons hg hgs))).parentheses

namespace Model

variable {m : Model} {map : EntityMap} {f : Fragment} {context after : Context}

theorem column_of_resolve {path : String} {resolved : ResolvedPath}
    (h : m.resolve map path = .ok resolved) : resolved.token.column = resolved.column.name := by
  cases resolve_eq_ok_iff.mp h <;> rfl

theorem isCondition_compileCompare {op : CompareOp} {path : String} {v : Value} {negated : Bool}
    (h : m.compileCompare map op path v negated context = .ok (f, after)) :
    f.IsCondition context.counter after.counter := by
  unfold compileCompare at h
  obtain ⟨resolved, hresolved, h⟩ := ok_of_bind h
  by_cases hv : v.isNull = true
  · simp only [hv, if_true] at h
    obtain ⟨test, htest, h⟩ := ok_of_bind h
    cases h
    have text : joins test = true := by
      cases negated <;> cases op <;> cases htest <;> decide
    exact isCondition_column test text resolved.token _
  · rw [if_neg hv] at h
    cases h
    have text : ∀ op : CompareOp, joins (" " ++ op.sql ++ " ") = true := by
      intro op
      cases op <;> decide
    have condition := isCondition_test _ (text (if negated then op.negate else op)) resolved.token v
      context.counter
    rw [column_of_resolve hresolved] at condition
    exact condition

theorem isCondition_compileLike {path pattern : String} {negated : Bool}
    (h : m.compileLike map path pattern negated context = .ok (f, after)) :
    f.IsCondition context.counter after.counter := by
  unfold compileLike at h
  obtain ⟨resolved, hresolved, h⟩ := ok_of_bind h
  cases h
  have text : joins (likeText negated) = true := by cases negated <;> decide
  have condition := isCondition_test _ text resolved.token (.varchar (some pattern)) context.counter
  rw [column_of_resolve hresolved] at condition
  exact condition

theorem isCondition_compileIn {path : String} {vs : List Value} {negated : Bool}
    (h : m.compileIn map path vs negated context = .ok (f, after)) :
    f.IsCondition context.counter after.counter := by
  unfold compileIn at h
  obtain ⟨resolved, hresolved, h⟩ := ok_of_bind h
  split at h
  next =>
    cases h
    exact isCondition_constant negated _
  next =>
    obtain ⟨ps, hps, hcount, hnames⟩ := numbered_bindEach resolved.column.name vs context
    cases h
    have text : joins (inText negated) = true := by cases negated <;> decide
    rw [← column_of_resolve hresolved] at hnames
    rw [hps, hcount]
    exact isCondition_list _ text resolved.token hnames

theorem isCondition_compileCall {method path : String} {argument : Argument} {negated : Bool}
    (h : m.compileCall map method path argument negated context = .ok (f, after)) :
    f.IsCondition context.counter after.counter := by
  rcases compileCall_eq_ok.mp h with ⟨text, rfl, -, h⟩ | ⟨vs, rfl, -, h⟩
  · exact isCondition_compileLike h
  · exact isCondition_compileIn h

mutual

/-- The fragment of a predicate is written well, and counts its parameters. -/
theorem isCondition_compileWith (p : Predicate) (negated : Bool) {f : Fragment}
    {context after : Context} (h : m.compileWith map p negated context = .ok (f, after)) :
    f.IsCondition context.counter after.counter := by
  cases p with
  | compare op path v => exact isCondition_compileCompare h
  | logical op children =>
      rw [compileWith] at h
      obtain ⟨⟨fs, context₁⟩, hfs, h⟩ := ok_of_bind h
      cases h
      exact isCondition_connect _ (areConditions_compileEach children negated hfs)
  | call method path argument => exact isCondition_compileCall h
  | not inner => exact isCondition_compileWith inner (!negated) h
  | constant v =>
      cases h
      exact isCondition_constant _ _

theorem areConditions_compileEach (ps : List Predicate) (negated : Bool) {fs : List Fragment}
    {context after : Context} (h : m.compileEach map ps negated context = .ok (fs, after)) :
    AreConditions context.counter fs after.counter := by
  cases ps with
  | nil =>
      cases h
      exact .nil _
  | cons p ps =>
      rw [compileEach] at h
      obtain ⟨⟨f, context₁⟩, hf, h⟩ := ok_of_bind h
      obtain ⟨⟨gs, context₂⟩, hgs, h⟩ := ok_of_bind h
      cases h
      exact .cons (isCondition_compileWith p negated hf) (areConditions_compileEach ps negated hgs)

end

theorem isCondition_compileLocal {p : Predicate}
    (h : m.compileLocal map p context = .ok (f, after)) :
    f.IsCondition context.counter after.counter := by
  obtain ⟨⟨g, context₁⟩, hg, h⟩ := ok_of_bind h
  dsimp only at h
  split at h
  · cases h
    exact isCondition_compileWith p false hg
  · cases h

end Model

/-! ## Filters -/

theorem isCondition_equalTest (table : String) (column : ColumnDef) (v : Value)
    (context : Context) : (equalTest table column v context).1.IsCondition context.counter
      (equalTest table column v context).2.counter :=
  isCondition_test " = " (by decide) ⟨none, table, column.name⟩ v context.counter

/-- The condition that leaves deleted rows out. Without a mark of deletion nothing is counted. -/
theorem isCondition_notDeleted (map : EntityMap) (table : String) (context : Context) :
    match notDeleted map table context with
    | (none, after) => after = context
    | (some f, after) => f.IsCondition context.counter after.counter := by
  unfold notDeleted
  cases map.softDeleteColumn? with
  | none => rfl
  | some column =>
      have missing := isCondition_column " IS NULL" (by decide)
        ⟨none, table, column.name⟩ context.counter
      have test := isCondition_test " = " (by decide) ⟨none, table, column.name⟩
        (.boolean (some false)) context.counter
      refine (missing.between " OR " (by decide) test).parentheses.congr ?_
      have text : " IS NULL OR " = " IS NULL" ++ " OR " := by decide
      simp only [glyphs_append, glyphs_ofText, text, String.toList_append, List.map_append,
        List.append_assoc]
      rfl

namespace EntityMap

variable {map : EntityMap} {record : Record} {context after : Context}

theorem areConditions_keyTests {columns : List ColumnDef} {fs : List Fragment}
    (h : map.keyTests record columns context = .ok (fs, after)) :
    AreConditions context.counter fs after.counter := by
  induction columns generalizing context fs with
  | nil =>
      cases h
      exact .nil _
  | cons column columns ih =>
      rw [keyTests] at h
      obtain ⟨v, -, h⟩ := ok_of_bind h
      obtain ⟨⟨tests, context₁⟩, htests, h⟩ := ok_of_bind h
      cases h
      exact .cons (isCondition_equalTest map.table.name column v context) (ih htests)

theorem isCondition_keyFilter {f : Fragment} (h : map.keyFilter record context = .ok (f, after)) :
    f.IsCondition context.counter after.counter := by
  obtain ⟨_, -, h⟩ := ok_of_bind h
  obtain ⟨⟨tests, context₁⟩, htests, h⟩ := ok_of_bind h
  cases h
  exact .joined " AND " (by decide) (areConditions_keyTests htests)

theorem numbered_assignments {columns : List ColumnDef} {values : List Assignment}
    (h : map.assignments record columns context = .ok (values, after)) (site : Site) :
    NumberedFrom context.counter (values.map (·.binding site)) after.counter := by
  induction columns generalizing context values with
  | nil =>
      cases h
      exact .nil _
  | cons column columns ih =>
      rw [assignments] at h
      obtain ⟨v, -, h⟩ := ok_of_bind h
      obtain ⟨⟨others, context₁⟩, hothers, h⟩ := ok_of_bind h
      cases h
      exact .cons rfl (ih hothers)

end EntityMap

namespace Model

variable {map : EntityMap} {context after : Context} {f : Fragment}

theorem isContinuation_otherThan {keep : List Record}
    (h : otherThan map keep context = .ok (f, after)) :
    f.IsContinuation context.counter after.counter := by
  induction keep generalizing context f with
  | nil =>
      cases h
      exact isContinuation_empty _
  | cons r rest ih =>
      rw [otherThan] at h
      obtain ⟨⟨key, context₁⟩, hkey, h⟩ := ok_of_bind h
      obtain ⟨⟨others, context₂⟩, hothers, h⟩ := ok_of_bind h
      cases h
      have first := (map.isCondition_keyFilter hkey).lead " AND NOT (" (by decide)
      exact (first.append (isContinuation_ofText ")" (by decide) _)).append (ih hothers)

theorem isContinuation_notAmong {keep : List Record}
    (h : notAmong map keep context = .ok (f, after)) :
    f.IsContinuation context.counter after.counter := by
  unfold notAmong at h
  split at h
  next column hkey =>
    split at h
    next =>
      cases h
      exact isContinuation_empty _
    next =>
      obtain ⟨values, -, h⟩ := ok_of_bind h
      obtain ⟨ps, hps, hcount, hnames⟩ := numbered_bindEach column.name values context
      cases h
      rw [hps, hcount]
      have list := isCondition_list " NOT IN (" (by decide)
        ⟨none, map.table.name, column.name⟩ hnames
      refine (list.lead " AND " (by decide)).congr ?_
      simp only [glyphs_append, List.append_assoc]
  next => exact isContinuation_otherThan h

end Model

/-! ## Statements that are written well -/

/-- The conditions of a statement. -/
def Statement.conditions : Statement → List Fragment
  | select s => s.joins.map (·.on) ++ [s.filter]
  | update s => [s.filter]
  | delete s => [s.filter]
  | _ => []

/-- The statement is about rows or removes a table, its conditions are written well, and its
parameters have the numbers from zero on. -/
structure Statement.WellWritten (st : Statement) : Prop where
  creates_nothing : ∀ s, st ≠ .createTable s
  conditions : ∀ f ∈ st.conditions, ∃ a b, f.IsCondition a b
  numbered : ∃ numbers, numbers.Perm (List.range st.bindings.length) ∧
    List.Forall₂ (fun n b => b.Numbered (.ofNat n)) numbers st.bindings

/-- The counts from a number on stand for the numbers from there on. -/
theorem NumberedFrom.of_ofNat {k : Nat} {bs : List Binding} {b : UInt32}
    (h : NumberedFrom (.ofNat k) bs b) :
    List.Forall₂ (fun n b => Binding.Numbered (.ofNat n) b) (List.range' k bs.length) bs := by
  have numbered := h.2
  rwa [countsFrom_ofNat, List.forall₂_map_left_iff] at numbered

/-- Parameters that are numbered as they are rendered. -/
theorem NumberedFrom.exists_perm {bs : List Binding} {b : UInt32} (h : NumberedFrom 0 bs b) :
    ∃ numbers, numbers.Perm (List.range bs.length) ∧
      List.Forall₂ (fun n b => Binding.Numbered (.ofNat n) b) numbers bs := by
  refine ⟨List.range' 0 bs.length, ?_, NumberedFrom.of_ofNat h⟩
  rw [List.range_eq_range']

/-- Parameters that are rendered before those with lower numbers. -/
theorem NumberedFrom.exists_perm_append {bs cs : List Binding} {b c : UInt32}
    (h : NumberedFrom 0 bs b) (h' : NumberedFrom b cs c) :
    ∃ numbers, numbers.Perm (List.range (cs ++ bs).length) ∧
      List.Forall₂ (fun n b => Binding.Numbered (.ofNat n) b) numbers (cs ++ bs) := by
  obtain rfl : b = UInt32.ofNat bs.length := h.1.trans (UInt32.zero_add _)
  refine ⟨List.range' (0 + bs.length) cs.length ++ List.range' 0 bs.length, ?_,
    List.rel_append (by rw [Nat.zero_add]; exact h'.of_ofNat) (NumberedFrom.of_ofNat h)⟩
  refine List.perm_append_comm.trans ?_
  rw [List.range'_append_1, List.length_append, Nat.add_comm cs.length, List.range_eq_range']

/-- A statement that removes or marks rows counts on after its filter. -/
theorem wellWritten_of_removeRows {map : EntityMap} {filter : Fragment} {context : Context}
    {supply supply' : Supply} {st : Statement} (hfilter : filter.IsCondition 0 context.counter)
    (h : removeRows map filter context supply = (st, supply')) : st.WellWritten := by
  have conditions : ∀ f ∈ [filter], ∃ a b, f.IsCondition a b := by simpa using ⟨0, _, hfilter⟩
  have numbered := hfilter.numbered .filter
  have mark (flag : ColumnDef) : (assign flag (.boolean (some true)) context).1.binding .set
    |>.Numbered context.counter := rfl
  cases EntityMap.removesRows_of_removeRows h with
  | deleted => exact ⟨nofun, conditions, numbered.exists_perm⟩
  | marked => exact ⟨nofun, conditions, numbered.exists_perm_append (.cons (mark _) (.nil _))⟩
  | stamped =>
      exact ⟨nofun, conditions,
        numbered.exists_perm_append (.cons (mark _) (.cons rfl (.nil _)))⟩

/-! ## Selects -/

theorem joinBindings_concat (n : Nat) (js : List Join) (j : Join) :
    joinBindings n (js ++ [j]) = joinBindings n js ++ j.on.bindings (.on (n + js.length)) := by
  induction js generalizing n with
  | nil => simp [joinBindings]
  | cons i js ih =>
      rw [List.cons_append, joinBindings, ih, joinBindings, List.append_assoc, List.length_cons,
        Nat.add_assoc, Nat.add_comm 1]

theorem Included.isCondition (x : Included) (includeDeleted : Bool) (root label : String)
    (context : Context) : (x.condition includeDeleted root label context).1.IsCondition
      context.counter (x.condition includeDeleted root label context).2.counter := by
  have link := (isCondition_ofColumn ⟨none, label, x.foreign.name⟩ context.counter).between
    " = " (by decide) (isCondition_ofColumn ⟨none, root, x.own.name⟩ context.counter)
  have kept := isCondition_notDeleted x.target label context
  unfold condition
  dsimp only
  split
  · split
    next condition after heq =>
      rw [heq] at kept
      exact link.between " AND " (by decide) kept
    next after heq =>
      rw [heq] at kept
      obtain rfl := kept
      exact link
  · exact link

namespace SelectDraft

/-- The joins so far are written well, and their parameters numbered. -/
structure WellWritten (d : SelectDraft) : Prop where
  conditions : ∀ j ∈ d.joins, ∃ a b, j.on.IsCondition a b
  numbered : NumberedFrom 0 (joinBindings 0 d.joins) d.context.counter

variable {m : Model} {map : EntityMap} {root : String} {includeDeleted : Bool} {d d' : SelectDraft}

/-- Joining one more relation adds a join whose condition counts on. -/
theorem exists_join_of_includeRelation {name : String}
    (h : m.includeRelation map root includeDeleted d name = .ok d') :
    ∃ j, d'.joins = d.joins ++ [j] ∧ j.on.IsCondition d.context.counter d'.context.counter := by
  obtain ⟨x, -, -, -, rfl⟩ := exists_included_of_includeRelation h
  exact ⟨_, rfl, x.isCondition includeDeleted root _ d.context⟩

theorem WellWritten.includeRelation (h : d.WellWritten) {name : String}
    (hd : m.includeRelation map root includeDeleted d name = .ok d') : d'.WellWritten := by
  obtain ⟨j, hjoins, hj⟩ := exists_join_of_includeRelation hd
  refine ⟨fun i hi => ?_, ?_⟩
  · rw [hjoins] at hi
    rcases List.mem_append.mp hi with hi | hi
    · exact h.conditions i hi
    · rw [List.mem_singleton.mp hi]
      exact ⟨_, _, hj⟩
  · rw [hjoins, joinBindings_concat]
    exact h.numbered.append (hj.numbered _)

theorem WellWritten.includeRelations (h : d.WellWritten) {names : List String}
    (hd : names.foldlM (m.includeRelation map root includeDeleted) d = .ok d') :
    d'.WellWritten := by
  induction names generalizing d with
  | nil =>
      cases hd
      exact h
  | cons name names ih =>
      rw [List.foldlM_cons] at hd
      obtain ⟨d₁, hd₁, hd⟩ := ok_of_bind hd
      exact ih (h.includeRelation hd₁) hd

/-- Qualifying changes the tables of columns alone. -/
theorem exists_mapColumns_of_qualifyTokens {ts ts' : List Token}
    (h : d.qualifyTokens root ts = .ok ts') :
    ∃ g : ColumnToken → ColumnToken, (∀ c, (g c).column = c.column) ∧
      (⟨ts'⟩ : Fragment) = Fragment.mapColumns ⟨ts⟩ g := by
  let g : ColumnToken → ColumnToken := fun c =>
    match d.qualify root c with
    | .ok c' => c'
    | .error _ => c
  refine ⟨g, fun c => ?_, ?_⟩
  · dsimp only [g]
    split
    next c' hc =>
      unfold qualify at hc
      split at hc
      · cases hc
        rfl
      · split at hc
        · cases hc
          rfl
        · cases hc
    next => rfl
  · unfold mapColumns
    congr 1
    rw [qualifyTokens_eq_ok_iff] at h
    induction h with
    | nil => rfl
    | @cons t t' ts ts' ht _ ih =>
        rw [List.map_cons, ← ih]
        cases t with
        | column c =>
            obtain ⟨c', hc, rfl⟩ := ht
            have : g c = c' := by
              dsimp only [g]
              rw [hc]
            rw [← this]
        | text s =>
            cases ht
            rfl
        | param p =>
            cases ht
            rfl

end SelectDraft

namespace Model

variable {m : Model} {map : EntityMap} {st : SelectStatement}

theorem isCondition_selectFilter {root : String} {d : SelectDraft} {p : Predicate} {f : Fragment}
    {after : Context} (h : m.selectFilter map root d p = .ok (f, after)) :
    f.IsCondition d.context.counter after.counter := by
  unfold selectFilter at h
  split at h
  · cases h
    exact (isContinuation_empty _).isCondition
  · obtain ⟨⟨g, after₁⟩, hg, h⟩ := ok_of_bind h
    obtain ⟨tokens, htokens, h⟩ := ok_of_bind h
    cases h
    obtain ⟨qualify, hqualify, heq⟩ := SelectDraft.exists_mapColumns_of_qualifyTokens htokens
    rw [heq]
    exact (isCondition_compileWith p false hg).mapColumns hqualify

/-- The whole filter, with the condition that leaves deleted rows out. -/
theorem exists_isCondition_filterOf (map : EntityMap) {f : Fragment} {context : Context}
    {a : UInt32} (h : f.IsCondition a context.counter) (includeDeleted : Bool) :
    ∃ b, (filterOf map includeDeleted f context).IsCondition a b := by
  have kept := isCondition_notDeleted map map.table.name context
  unfold filterOf
  split
  · exact ⟨_, h⟩
  · split
    · exact ⟨_, h⟩
    next condition heq =>
      generalize notDeleted map map.table.name context = result at heq kept
      obtain ⟨_, after⟩ := result
      cases heq
      split
      next hempty =>
        -- nothing has been counted where nothing was written
        have same : a = context.counter := by
          obtain ⟨tokens⟩ := f
          obtain rfl := List.isEmpty_iff.mp hempty
          obtain ⟨t, ht, written⟩ := h ⟨a, none, false⟩ rfl rfl
          cases written
          exact ht
        rw [same]
        exact ⟨_, kept⟩
      next => exact ⟨_, h.between " AND " (by decide) kept⟩

theorem wellWritten_of_select {p : Predicate} {includes : List String} {options : SelectOptions}
    (h : m.select map p includes options = .ok st) : (Statement.select st).WellWritten := by
  obtain ⟨d, hd, h⟩ := ok_of_bind h
  obtain ⟨⟨f, context⟩, hf, h⟩ := ok_of_bind h
  obtain ⟨orderBy, -, h⟩ := ok_of_bind h
  have start : SelectDraft.WellWritten (SelectDraft.addSegment
      { used := [map.table.name], context := { clause := .select } } none map map.table.name) :=
    ⟨by simp [SelectDraft.addSegment], .nil 0⟩
  have draft := start.includeRelations hd
  obtain ⟨b, filter⟩ := exists_isCondition_filterOf map (isCondition_selectFilter hf)
    options.includeDeleted
  obtain rfl := Except.ok.inj h
  refine ⟨fun s hs => ?_, fun g hg => ?_, ?_⟩
  · cases hs
  · rcases List.mem_append.mp hg with hg | hg
    · obtain ⟨j, hj, rfl⟩ := List.mem_map.mp hg
      exact draft.conditions j hj
    · rw [List.mem_singleton.mp hg]
      exact ⟨_, _, filter⟩
  · exact (draft.numbered.append (filter.numbered .filter)).exists_perm

end Model

/-! ## Edits -/

namespace Edit

variable {map : EntityMap} {b b' : Bench}

theorem wellWritten_of_insert {forced : Bool} {st : InsertStatement}
    (h : insert map forced b = .ok (some st) b') : (Statement.insert st).WellWritten := by
  obtain ⟨-, b₁, stamped, context, -, -, -, hvalues⟩ := steps_of_insert_some h
  exact ⟨nofun, by simp [Statement.conditions],
    (map.numbered_assignments hvalues .values).exists_perm⟩

theorem wellWritten_of_update {fields : Option (List String)} {st : UpdateStatement}
    (h : update map fields b = .ok st b') : (Statement.update st).WellWritten := by
  obtain ⟨-, -, -, stamped, context, context', -, -, hset, hfilter⟩ := steps_of_update h
  have filter := map.isCondition_keyFilter hfilter
  exact ⟨nofun, by simpa [Statement.conditions] using ⟨_, _, filter⟩,
    ((map.numbered_assignments hset .set).append (filter.numbered .filter)).exists_perm⟩

theorem wellWritten_of_delete {st : Statement} (h : delete map b = .ok st b') :
    st.WellWritten := by
  obtain ⟨-, filter, context, supply, hfilter, hremoved, -⟩ := steps_of_delete h
  exact wellWritten_of_removeRows (map.isCondition_keyFilter hfilter) hremoved

end Edit

/-! ## All statements -/

namespace Model

variable {m : Model} {st : Statement}

theorem wellWritten_of_deleteWhere {map : EntityMap} {p : Predicate} {supply supply' : Supply}
    (h : m.deleteWhere map p supply = .ok (st, supply')) : st.WellWritten := by
  obtain ⟨⟨filter, context⟩, hfilter, h⟩ := ok_of_bind h
  exact wellWritten_of_removeRows (isCondition_compileLocal hfilter) (Except.ok.inj h)

theorem wellWritten_of_deleteOrphans {relation : RelationDef} {owner : Value} {keep : List Record}
    {supply supply' : Supply}
    (h : m.deleteOrphans relation owner keep supply = .ok (st, supply')) : st.WellWritten := by
  obtain ⟨target, foreign, kept, context, -, -, hkept, hremoved⟩ := steps_of_deleteOrphans h
  have own := isCondition_equalTest target.table.name foreign owner { qualify := false }
  exact wellWritten_of_removeRows (own.append (isContinuation_notAmong hkept)) hremoved

/-- **What is built is written well**, and its parameters have the numbers from zero on. -/
theorem wellWritten_of_builds (h : m.Builds st) : st.WellWritten := by
  cases h with
  | select built => exact wellWritten_of_select built
  | insert built => exact Edit.wellWritten_of_insert built
  | update built => exact Edit.wellWritten_of_update built
  | delete built => exact Edit.wellWritten_of_delete built
  | deleteWhere built => exact wellWritten_of_deleteWhere built
  | deleteOrphans built => exact wellWritten_of_deleteOrphans built
  | dropTable map ifExists =>
      exact ⟨nofun, by simp [Statement.conditions], [], .nil, .nil⟩

end Model

/-! ## Different names -/

/-- The column and the number of a name can be read off it: the number is what follows the last
underscore. -/
theorem eq_of_underscore {column column' : String} {n n' : Nat}
    (h : column ++ "_" ++ toString n = column' ++ "_" ++ toString n') :
    column = column' ∧ n = n' := by
  have apart : ∀ k : Nat, '_' ∉ (toString k).toList := by
    intro k hk
    have := Dialect.isDigit_of_mem_toString hk
    exact absurd this (by decide)
  have split : ∀ (c : String) (k : Nat),
      (c ++ "_" ++ toString k).toList = c.toList ++ '_' :: (toString k).toList := by
    intro c k
    have underscore : "_".toList = ['_'] := by decide
    rw [String.toList_append, String.toList_append, underscore, List.append_assoc,
      List.singleton_append]
  have lists := congrArg String.toList h
  rw [split, split] at lists
  obtain ⟨columns, digits⟩ := Text.eq_of_append_cons_last (apart n) (apart n') lists
  exact ⟨String.toList_inj.mp columns, Nat.repr_inj.mp (String.toList_inj.mp digits)⟩

theorem numberedName_inj {column column' : String} {n n' : UInt32}
    (h : numberedName column n = numberedName column' n') : column = column' ∧ n = n' := by
  obtain ⟨columns, numbers⟩ := @eq_of_underscore _ _ n.toNat n'.toNat h
  exact ⟨columns, UInt32.toNat_inj.mp numbers⟩

/-- Parameters with different numbers have different names, if the numbers have 32 bits. -/
theorem nodup_names {numbers : List Nat} {bs : List Binding}
    (h : List.Forall₂ (fun n b => Binding.Numbered (.ofNat n) b) numbers bs)
    (hnumbers : numbers.Nodup) (hbits : ∀ n ∈ numbers, n < 2 ^ 32) :
    (bs.map (·.param.name)).Nodup := by
  induction h with
  | nil => exact List.nodup_nil
  | @cons n b numbers bs hb hrest ih =>
      rw [List.nodup_cons] at hnumbers
      rw [List.map_cons, List.nodup_cons]
      refine ⟨fun hmem => ?_, ih hnumbers.2 fun k hk => hbits k (List.mem_cons_of_mem n hk)⟩
      obtain ⟨c, hc, heq⟩ := List.mem_map.mp hmem
      obtain ⟨k, hk, hnumbered⟩ := exists_of_mem_forall₂ hrest hc
      have counts : UInt32.ofNat n = UInt32.ofNat k :=
        (numberedName_inj (hb.symm.trans (heq.symm.trans hnumbered))).2
      have same : n = k := by
        rw [← UInt32.toNat_ofNat_of_lt' (hbits n List.mem_cons_self), counts,
          UInt32.toNat_ofNat_of_lt' (hbits k (List.mem_cons_of_mem n hk))]
      exact hnumbers.1 (same ▸ hk)

/-- The parameters of what is written well have different names, if there are numbers for them. -/
theorem Statement.WellWritten.nodup_params {st : Statement} (h : st.WellWritten) (d : Dialect)
    (hcount : (d.render st).params.length ≤ 2 ^ 32) :
    ((d.render st).params.map (·.name)).Nodup := by
  obtain ⟨numbers, hperm, hnumbered⟩ := h.numbered
  rw [d.params_render, List.length_map] at hcount
  rw [d.params_render, List.map_map]
  refine nodup_names hnumbered (hperm.nodup_iff.mpr List.nodup_range) fun n hn => ?_
  exact Nat.lt_of_lt_of_le (List.mem_range.mp (hperm.mem_iff.mp hn)) hcount

/-- **No two parameters of a query have the same name**, whatever the columns are called, as long
as 32 bits are enough to number them: the parameters are named by the numbers below their count,
each once. -/
theorem names_nodup_of_builds {m : Model} {st : Statement} (h : m.Builds st) (d : Dialect) :
    ((d.render st).params.length ≤ 2 ^ 32 → ((d.render st).params.map (·.name)).Nodup) ∧
      ∃ numbers, numbers.Perm (List.range (d.render st).params.length) ∧
        List.Forall₂ (fun n p => ∃ column, p.name = numberedName column (.ofNat n)) numbers
          (d.render st).params := by
  have written := m.wellWritten_of_builds h
  obtain ⟨numbers, hperm, hnumbered⟩ := written.numbered
  refine ⟨written.nodup_params d, numbers, ?_, ?_⟩ <;> rw [d.params_render]
  · rwa [List.length_map]
  · rw [List.forall₂_map_right_iff]
    exact hnumbered.imp fun n b hb => ⟨b.column, hb⟩

/-- A table with columns whose names look like those of parameters, and with a name that has
quotes and placeholders in it. -/
def Sample.lookalikes : EntityMap where
  type := "Lookalike"
  table := ⟨"", "\"$1\" [?]"⟩
  columns := [⟨"a", "a", .int32 none, true, .none, true, true⟩,
    ⟨"b", "a_1", .int32 none, true, .none, true, true⟩,
    ⟨"c", "a_0", .boolean none, true, .none, true, true⟩]
  keys := []
  generatedKey := none
  softDelete := some 2
  autoTimestamp := none
  relations := []
  prototype := .mk "Lookalike" [] []

/-- Rows are marked whose columns are called as parameters are. -/
theorem names_nodup_of_builds_lookalikes :
    let p : Predicate := .logical .or [.compare .less "b" (.int32 (some 1)),
      .call "in" "a" (.list [.int32 (some 2), .int32 (some 3)])]
    ∃ st supply,
      (Model.mk []).deleteWhere Sample.lookalikes p NumberedSupply.supply = .ok (st, supply) ∧
      (Dialect.sqlite.render st).params.map (·.name) = ["a_0_3", "a_1_0", "a_1", "a_2"] ∧
      ((Dialect.sqlite.render st).params.map (·.name)).Nodup ∧
      ∃ numbers, numbers.Perm (List.range (Dialect.sqlite.render st).params.length) ∧
        List.Forall₂ (fun n p => ∃ column, p.name = numberedName column (.ofNat n)) numbers
          (Dialect.sqlite.render st).params := by
  intro p
  obtain ⟨st, supply, h⟩ : ∃ st supply,
      (Model.mk []).deleteWhere Sample.lookalikes p NumberedSupply.supply = .ok (st, supply) :=
    ⟨_, _, rfl⟩
  obtain ⟨different, numbered⟩ := names_nodup_of_builds (.deleteWhere h) .sqlite
  refine ⟨st, supply, h, ?_, different ?_, numbered⟩
  all_goals cases h
  · decide
  · decide

end GraphStore
