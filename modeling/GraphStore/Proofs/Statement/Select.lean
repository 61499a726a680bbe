import GraphStore.Proofs.Predicate.Properties
import GraphStore.Proofs.Record.Loading

/-!
# What a select asks for

The meaning of the parts of a joined select. A join finds the rows that belong to a relation
(`Included.found`), without those that are marked as deleted in a collection; the filter leaves
the rows of the entity on which the predicate is true (`EntityMap.selects`), again without the
deleted; and every segment says where the columns of its table are. `SelectStatement.Selects` puts
this together, and `exists_select` says that the statement is built when everything that is asked
for exists.
-/

set_option autoImplicit false

namespace GraphStore

open Fragment
open Sqlite (Truth)

/-! ## The mark of deletion -/

/-- The row is not marked as deleted: there is no mark, or it is null, or it is found to be
false. -/
def EntityMap.keeps (s : Semantics) (map : EntityMap) (t : TableRow) : Bool :=
  match map.softDeleteColumn? with
  | none => true
  | some mark =>
      (t mark.name).isNull || s.test .equal (t mark.name) (.boolean (some false)) == some true

/-- The rows of the entity that are selected. -/
def EntityMap.selects (s : Semantics) (map : EntityMap) (p : Predicate) (includeDeleted : Bool)
    (t : TableRow) : Bool :=
  p.truth s (map.propertyValues t) == some true && (includeDeleted || map.keeps s t)

/-- A column that is null or equal to a parameter. -/
theorem reads_missing_or_equal (c : ColumnToken) (p : Param) :
    Reads .operand (ofText "(" ++ ofColumn c ++ ofText " IS NULL OR " ++ ofColumn c ++
      ofText " = " ++ ofParam p ++ ofText ")").lexemes
      (.or (.isNull (.column c)) (.compare .equal (.column c) (.param p))) := by
  have opening : (ofText "(").lexemes = [.opening] := by decide
  have closing : (ofText ")").lexemes = [.closing] := by decide
  have missing : (ofText " IS NULL OR ").lexemes = [.is, .null, .or] := by decide
  have equal : (ofText " = ").lexemes = [.compare .equal] := by decide
  have inner : Reads .disjunction
      [.column c, .is, .null, .or, .column c, .compare .equal, .param p]
      (.or (.isNull (.column c)) (.compare .equal (.column c) (.param p))) :=
    .or (.ofNegation (.ofOperand (.test (.isNull (.column c)))))
      (.ofConjunction (.ofNegation (.ofOperand
        (.test (.compare .equal (.column c) (.param p))))))
  rw [lexemes_append_text (by decide), closing,
    lexemes_between (by decide) (by decide) (by decide), equal,
    lexemes_between (by decide) (by decide) (by decide), missing,
    lexemes_text_append (by decide), opening]
  exact .parentheses inner

section

variable {map : EntityMap} {label : String} {context : Context}

theorem keeps_of_notDeleted (h : (notDeleted map label context).1 = none) (s : Semantics)
    (t : TableRow) : map.keeps s t = true := by
  unfold notDeleted at h
  unfold EntityMap.keeps
  cases hmark : map.softDeleteColumn? with
  | none => rfl
  | some mark =>
      rw [hmark] at h
      cases h

/-- The text that leaves deleted rows out is an operand with the meaning of `keeps`. -/
theorem exists_condition_notDeleted {f : Fragment} (h : (notDeleted map label context).1 = some f) :
    ∃ c, Reads .operand f.lexemes c ∧ ∀ s cells, (c.truth s cells == some true) =
      map.keeps s fun name => cells ⟨none, label, name⟩ := by
  unfold notDeleted at h
  cases hmark : map.softDeleteColumn? with
  | none =>
      rw [hmark] at h
      cases h
  | some mark =>
      rw [hmark] at h
      cases h
      refine ⟨_, reads_missing_or_equal _ _, fun s cells => ?_⟩
      rw [Condition.truth, Truth.or_beq_true, EntityMap.keeps, hmark]
      cases hnull : (cells ⟨none, label, mark.name⟩).isNull <;>
        simp [Condition.truth, Operand.value, hnull]

end

/-! ## Included relations -/

/-- A relation that is included, with the map of its target and the columns that are compared. -/
structure Included where
  relation : RelationDef
  target : EntityMap
  own : ColumnDef
  foreign : ColumnDef

namespace Included

/-- The row `t'` of the target belongs to the row `t` of the entity. Deleted rows do not belong to
a collection. -/
def belongs (s : Semantics) (includeDeleted : Bool) (x : Included) (t t' : TableRow) : Bool :=
  s.test .equal (t' x.foreign.name) (t x.own.name) == some true &&
    (x.relation.kind == .manyToOne || includeDeleted || x.target.keeps s t')

/-- The rows of the target that belong to a row of the entity. -/
def found (s : Semantics) (tables : Tables) (includeDeleted : Bool) (x : Included)
    (t : TableRow) : List TableRow :=
  (tables x.target.table).filter (x.belongs s includeDeleted t)

/-- The relation is one of the entity, and what it refers to is mapped. -/
structure Declared (m : Model) (map : EntityMap) (x : Included) : Prop where
  mem : x.relation ∈ map.relations
  target_eq : m.target x.relation = .ok x.target
  own_eq : map.column? x.relation.localKey = some x.own
  foreign_eq : x.target.column? x.relation.foreignKey = some x.foreign

/-- The condition of the join. -/
def condition (includeDeleted : Bool) (x : Included) (root label : String) (context : Context) :
    Fragment × Context :=
  let on := ofColumn ⟨none, label, x.foreign.name⟩ ++ ofText " = " ++
    ofColumn ⟨none, root, x.own.name⟩
  if x.relation.kind = .oneToMany ∧ !includeDeleted then
    match notDeleted x.target label context with
    | (some kept, context) => (on ++ ofText " AND " ++ kept, context)
    | (none, context) => (on, context)
  else (on, context)

/-- The condition of the join is true where the row of the target belongs to that of the
entity. -/
theorem holds_condition (includeDeleted : Bool) (x : Included) (root label : String)
    (context : Context) (s : Semantics) (cells : Valuation) :
    (x.condition includeDeleted root label context).1.holds s cells =
      x.belongs s includeDeleted (fun name => cells ⟨none, root, name⟩)
        (fun name => cells ⟨none, label, name⟩) := by
  have sign : (ofText " = ").lexemes = [.compare .equal] := by decide
  have equal : Reads .operand (ofColumn ⟨none, label, x.foreign.name⟩ ++ ofText " = " ++
      ofColumn ⟨none, root, x.own.name⟩).lexemes
      (.compare .equal (.column ⟨none, label, x.foreign.name⟩)
        (.column ⟨none, root, x.own.name⟩)) := by
    rw [lexemes_between (by decide) (by decide) (by decide), sign]
    exact .test (.compare .equal (.column _) (.column _))
  have alone := condition?_of_operand equal
  by_cases hkept : x.relation.kind = .oneToMany ∧ !includeDeleted
  -- only the join of a collection leaves deleted rows out
  · have collection : (x.relation.kind == .manyToOne || includeDeleted) = false := by
      simpa [hkept.1] using hkept.2
    cases hdeleted : notDeleted x.target label context with
    | mk kept after =>
        simp only [condition, hkept, and_self, if_true, hdeleted]
        cases kept with
        | none =>
            rw [Fragment.holds_of_condition? alone, belongs, collection, Bool.false_or,
              keeps_of_notDeleted (congrArg Prod.fst hdeleted), Bool.and_true]
            rfl
        | some f =>
            obtain ⟨c, hc, truth⟩ := exists_condition_notDeleted (congrArg Prod.fst hdeleted)
            -- the conjunction is read as one because both sides are operands
            have both := Fragment.condition?_eq_some_iff.mpr
              (.ofConjunction (Fragment.reads_and equal (.ofNegation (.ofOperand hc))))
            rw [Fragment.holds_of_condition? both, belongs, collection, Bool.false_or, ← truth]
            exact Truth.and_beq_true _ _
  · have all : (x.relation.kind == .manyToOne || includeDeleted) = true := by
      cases hkind : x.relation.kind with
      | manyToOne => rfl
      | oneToMany => simpa [hkind] using hkept
    simp only [condition, hkept, if_false]
    rw [Fragment.holds_of_condition? alone, belongs, all, Bool.true_or, Bool.and_true]
    rfl

end Included

/-- What a select has for a relation: how it is joined, and where its columns are. -/
structure Inclusion where
  included : Included
  join : Join
  segment : Segment

/-- The join and the segment are those of the relation. -/
structure Inclusion.Sound (root : String) (includeDeleted : Bool) (columns : List SelectColumn)
    (y : Inclusion) : Prop where
  kind_eq : y.join.kind = y.included.relation.joinKind
  table_eq : y.join.table = y.included.target.table
  relation_eq : y.segment.relation = some y.included.relation
  map_eq : y.segment.map = y.included.target
  label_eq : y.segment.label = y.join.label
  laid : y.segment.Laid columns
  holds_on : ∀ s cells, y.join.on.holds s cells =
    y.included.belongs s includeDeleted (fun name => cells ⟨none, root, name⟩)
      (fun name => cells ⟨none, y.join.label, name⟩)

theorem Inclusion.Sound.append {root : String} {includeDeleted : Bool}
    {columns : List SelectColumn} {y : Inclusion} (h : y.Sound root includeDeleted columns)
    (more : List SelectColumn) : y.Sound root includeDeleted (columns ++ more) :=
  { h with laid := h.laid.append more }

/-! ## Drafts -/

namespace SelectDraft

/-- The draft of a select of the entity of `map` that includes the relations `ys`. -/
structure Includes (map : EntityMap) (includeDeleted : Bool) (ys : List Inclusion)
    (d : SelectDraft) : Prop where
  joins_eq : d.joins = ys.map (·.join)
  segments_eq : ∃ root, d.segments = root :: ys.map (·.segment) ∧ root.map = map ∧
    root.label = map.table.name ∧ root.Laid d.columns
  sound : ∀ y ∈ ys, y.Sound map.table.name includeDeleted d.columns
  alias_isSome : ∀ p,
    (d.aliases.lookup p).isSome = true ↔ p ∈ ys.map (·.included.relation.property)

/-- An added segment says where the added columns are. -/
theorem laid_addSegment (d : SelectDraft) (relation : Option RelationDef) (map : EntityMap)
    (label : String) : ∃ seg : Segment, (d.addSegment relation map label).segments =
      d.segments ++ [seg] ∧ seg.relation = relation ∧ seg.map = map ∧ seg.label = label ∧
      seg.Laid (d.addSegment relation map label).columns := by
  refine ⟨_, rfl, rfl, rfl, rfl, ⟨d.columns, [], "split_" ++ toString d.segments.length, rfl, ?_⟩,
    rfl⟩
  rw [List.append_nil]
  rfl

variable {m : Model} {map : EntityMap} {includeDeleted : Bool} {ys : List Inclusion}
  {d : SelectDraft} {x : Included}

theorem includes_start (map : EntityMap) (includeDeleted : Bool) (context : Context) :
    (addSegment { used := [map.table.name], context } none map map.table.name).Includes map
      includeDeleted [] := by
  obtain ⟨seg, hsegments, -, hmap, hlabel, hlaid⟩ :=
    laid_addSegment { used := [map.table.name], context } none map map.table.name
  exact ⟨rfl, ⟨seg, hsegments, hmap, hlabel, hlaid⟩, by simp, fun p => by simp [addSegment]⟩

/-- The draft with the relation joined to it. -/
def withRelation (root : String) (includeDeleted : Bool) (d : SelectDraft) (x : Included) :
    SelectDraft :=
  let label := nextAlias d.used x.target.table.name
  let on := x.condition includeDeleted root label d.context
  addSegment
    { d with
      joins := d.joins ++ [⟨x.relation.joinKind, x.target.table, label, on.1⟩]
      used := x.target.table.name :: d.used
      aliases := (x.relation.property, label) :: d.aliases
      context := on.2 }
    (some x.relation) x.target label

theorem includeRelation_eq_ok (includeDeleted : Bool) (hderived : map.Derived)
    (hx : x.Declared m map)
    (hnew : (d.aliases.lookup x.relation.property).isSome = false) :
    m.includeRelation map map.table.name includeDeleted d x.relation.property =
      .ok (d.withRelation map.table.name includeDeleted x) := by
  have relation : map.relation x.relation.property = .ok x.relation := by
    rw [EntityMap.relation, hderived.relation?_of_mem hx.mem]
    rfl
  have foreign : ∀ label, x.target.aliased label x.relation.foreignKey =
      .ok ⟨none, label, x.foreign.name⟩ := by
    intro label
    rw [EntityMap.aliased, EntityMap.column, hx.foreign_eq]
    rfl
  have own : map.aliased map.table.name x.relation.localKey =
      .ok ⟨none, map.table.name, x.own.name⟩ := by
    rw [EntityMap.aliased, EntityMap.column, hx.own_eq]
    rfl
  simp only [Model.includeRelation, relation, ok_bind, hnew, Bool.false_eq_true, if_false,
    hx.target_eq, foreign, own]
  rfl

/-- What was found when a relation was joined. -/
theorem exists_included_of_includeRelation {root name : String} {d' : SelectDraft}
    (h : m.includeRelation map root includeDeleted d name = .ok d') :
    ∃ x : Included, x.Declared m map ∧ map.relation? name = some x.relation ∧
      (d.aliases.lookup x.relation.property).isSome = false ∧
      d' = d.withRelation root includeDeleted x := by
  unfold Model.includeRelation at h
  obtain ⟨r, hr, h⟩ := ok_of_bind h
  obtain ⟨hnew, h⟩ := ok_of_check h
  obtain ⟨target, htarget, h⟩ := ok_of_bind h
  obtain ⟨_, hforeign, h⟩ := ok_of_bind h
  obtain ⟨_, hown, h⟩ := ok_of_bind h
  obtain ⟨foreign, foreign_eq, rfl⟩ := ok_of_map hforeign
  obtain ⟨own, own_eq, rfl⟩ := ok_of_map hown
  have hr := ok_of_orFail hr
  rw [Bool.not_eq_true] at hnew
  exact ⟨⟨r, target, own, foreign⟩, ⟨List.mem_of_find?_eq_some hr, htarget, ok_of_orFail own_eq,
    ok_of_orFail foreign_eq⟩, hr, hnew, (Except.ok.inj h).symm⟩

/-- One more relation. -/
theorem exists_includeRelation (h : d.Includes map includeDeleted ys) (hderived : map.Derived)
    (hx : x.Declared m map)
    (hnew : x.relation.property ∉ ys.map (·.included.relation.property)) :
    ∃ d' y, m.includeRelation map map.table.name includeDeleted d x.relation.property = .ok d' ∧
      y.included = x ∧ d'.Includes map includeDeleted (ys ++ [y]) := by
  have fresh : (d.aliases.lookup x.relation.property).isSome = false := by
    rw [← Bool.not_eq_true, h.alias_isSome]
    exact hnew
  have included := includeRelation_eq_ok includeDeleted hderived hx fresh
  rw [withRelation] at included
  -- the alias and the condition matter by what was shown of them only
  generalize nextAlias d.used x.target.table.name = label at included
  have holds := x.holds_condition includeDeleted map.table.name label d.context
  generalize x.condition includeDeleted map.table.name label d.context = on at included holds
  obtain ⟨seg, hsegments, hrelation, hmap, hlabel, hlaid⟩ := laid_addSegment
    { d with
      joins := d.joins ++ [⟨x.relation.joinKind, x.target.table, label, on.1⟩]
      used := x.target.table.name :: d.used
      aliases := (x.relation.property, label) :: d.aliases
      context := on.2 } (some x.relation) x.target label
  obtain ⟨root, hroot, hrootmap, hrootlabel, hrootlaid⟩ := h.segments_eq
  refine ⟨_, ⟨x, ⟨x.relation.joinKind, x.target.table, label, on.1⟩, seg⟩, included, rfl,
    ?_, ⟨root, ?_, hrootmap, hrootlabel, hrootlaid.append _⟩, fun y hy => ?_, fun p => ?_⟩
  · rw [List.map_append, ← h.joins_eq]
    rfl
  · rw [hsegments, hroot]
    simp
  · rcases List.mem_append.mp hy with hy | hy
    · exact (h.sound y hy).append _
    · rw [List.mem_singleton.mp hy]
      exact ⟨rfl, rfl, hrelation, hmap, hlabel, hlaid, holds⟩
  · rw [List.map_append, List.mem_append, ← h.alias_isSome, List.map_singleton, List.mem_singleton]
    change (List.lookup p ((x.relation.property, label) :: d.aliases)).isSome = true ↔ _
    rw [List.lookup_cons]
    cases hp : p == x.relation.property with
    | true => simp [beq_iff_eq.mp hp]
    | false => simp [beq_eq_false_iff_ne.mp hp]

/-- All relations, one after another. -/
theorem exists_includeRelations (hderived : map.Derived) {xs : List Included}
    (h : d.Includes map includeDeleted ys) (hxs : ∀ x ∈ xs, x.Declared m map)
    (hnodup : ((ys.map (·.included) ++ xs).map (·.relation.property)).Nodup) :
    ∃ d' zs, (xs.map (·.relation.property)).foldlM
        (m.includeRelation map map.table.name includeDeleted) d = .ok d' ∧
      zs.map (·.included) = xs ∧ d'.Includes map includeDeleted (ys ++ zs) := by
  induction xs generalizing d ys with
  | nil => exact ⟨d, [], rfl, rfl, by rwa [List.append_nil]⟩
  | cons x xs ih =>
      have hnew : x.relation.property ∉ ys.map (·.included.relation.property) := by
        intro hmem
        rw [List.map_append, List.nodup_append] at hnodup
        obtain ⟨y, hy, heq⟩ := List.mem_map.mp hmem
        exact hnodup.2.2 _ (List.mem_map_of_mem (List.mem_map_of_mem hy)) _
          (List.mem_map_of_mem List.mem_cons_self) heq
      obtain ⟨d₁, y, hd₁, rfl, h₁⟩ :=
        exists_includeRelation h hderived (hxs x List.mem_cons_self) hnew
      obtain ⟨d₂, zs, hd₂, rfl, h₂⟩ := ih h₁ (fun x hx => hxs x (List.mem_cons_of_mem _ hx))
        (by simpa using hnodup)
      refine ⟨d₂, y :: zs, ?_, rfl, by simpa using h₂⟩
      rw [List.map_cons, List.foldlM_cons, hd₁, ok_bind, hd₂]

theorem exists_orderColumns (ordering : List (String × Order))
    (h : d.Includes map includeDeleted ys)
    (hordering : ∀ o ∈ ordering, ∃ resolved, m.resolve map o.1 = .ok resolved ∧
      ∀ r, resolved.token.relation = some r → r ∈ ys.map (·.included.relation.property)) :
    ∃ columns, m.orderColumns map map.table.name d ordering = .ok columns := by
  induction ordering with
  | nil => exact ⟨[], rfl⟩
  | cons o ordering ih =>
      obtain ⟨resolved, hresolved, hincluded⟩ := hordering o List.mem_cons_self
      obtain ⟨columns, hcolumns⟩ := ih fun o' ho' => hordering o' (List.mem_cons_of_mem o ho')
      have hqualify : ∃ token, d.qualify map.table.name resolved.token = .ok token := by
        unfold qualify
        cases hrelation : resolved.token.relation with
        | none => exact ⟨_, rfl⟩
        | some r =>
            -- an included relation has an alias by which its columns are ordered
            obtain ⟨label, hlabel⟩ :=
              Option.isSome_iff_exists.mp ((h.alias_isSome r).mpr (hincluded r hrelation))
            simp only [hlabel]
            exact ⟨_, rfl⟩
      obtain ⟨token, htoken⟩ := hqualify
      refine ⟨(token, o.2) :: columns, ?_⟩
      rw [Model.orderColumns, hresolved, ok_bind, htoken, ok_bind, hcolumns]
      rfl

end SelectDraft

/-! ## The filter -/

section

variable {m : Model} {map : EntityMap} {p : Predicate}

/-- The filter before deleted rows are left out: nothing for the predicate that always holds,
otherwise an operand with the meaning of the predicate. -/
theorem meaning_of_selectFilter (hp : p.OfProperties) {d : SelectDraft} {f : Fragment}
    {context : Context} (h : m.selectFilter map map.table.name d p = .ok (f, context)) :
    (f = .empty ∧ p = .constant true) ∨ ∃ c, Reads .operand f.lexemes c ∧
      ∀ s cells, c.truth s cells = p.truth s (map.propertyValues fun name =>
        cells ⟨none, map.table.name, name⟩) := by
  unfold Model.selectFilter at h
  split at h
  · cases h
    exact .inl ⟨rfl, rfl⟩
  · obtain ⟨⟨g, after⟩, hg, h⟩ := ok_of_bind h
    obtain ⟨tokens, htokens, h⟩ := ok_of_bind h
    cases h
    -- the columns are the entity's own, so no alias is looked up for them
    have qualified : d.qualifyTokens map.table.name g.tokens = .ok g.tokens :=
      d.qualifyTokens_eq_ok fun _ hc => Model.isLocal_of_mem_columns hp hg hc
    obtain rfl : tokens = g.tokens := Except.ok.inj (htokens.symm.trans qualified)
    obtain ⟨c, hc, truth⟩ := Model.exists_condition_compile hg
    refine .inr ⟨c, hc, fun s cells => ?_⟩
    rw [truth, Model.truth_pathValues (fun _ => rfl) hp]

/-- A predicate that is accepted can be written as a filter. -/
theorem exists_selectFilter (haccepts : m.Accepts map p) (hp : p.OfProperties)
    (d : SelectDraft) : ∃ f context, m.selectFilter map map.table.name d p = .ok (f, context) := by
  obtain ⟨f, after, hf⟩ := Model.exists_compile haccepts d.context
  have qualified : d.qualifyTokens map.table.name f.tokens = .ok f.tokens :=
    d.qualifyTokens_eq_ok fun _ hc => Model.isLocal_of_mem_columns hp hf hc
  unfold Model.selectFilter
  split
  · exact ⟨.empty, d.context, rfl⟩
  · rw [hf, ok_bind]
    simp only [qualified, ok_bind]
    exact ⟨f, after, rfl⟩

/-- What a filter leaves that is read as a condition. -/
theorem admits_of_condition? {f : Fragment} {c : Condition} (h : f.condition? = some c)
    (s : Semantics) (cells : Valuation) :
    f.isEmpty = false ∧ (f.isEmpty || f.holds s cells) = (c.truth s cells == some true) := by
  have written : f.isEmpty = false := by
    rw [← Bool.not_eq_true]
    intro hempty
    refine (Fragment.condition?_eq_some_iff.mp h).ne_nil ?_
    rw [lexemes, glyphs, List.isEmpty_iff.mp hempty]
    rfl
  exact ⟨written, by rw [written, Bool.false_or, Fragment.holds_of_condition? h]⟩

/-- The filter with the condition that leaves deleted rows out. -/
def filterOf (map : EntityMap) (includeDeleted : Bool) (filter : Fragment) (context : Context) :
    Fragment :=
  if includeDeleted then filter
  else match (notDeleted map map.table.name context).1 with
    | none => filter
    | some condition =>
        if filter.isEmpty then condition else filter ++ ofText " AND " ++ condition

theorem admits_filterOf {f : Fragment} {s : Semantics} {cells : Valuation} {t : Truth}
    (includeDeleted : Bool) (context : Context)
    (h : (f = .empty ∧ t = some true) ∨
      ∃ c, Reads .operand f.lexemes c ∧ c.truth s cells = t) :
    ((filterOf map includeDeleted f context).isEmpty ||
      (filterOf map includeDeleted f context).holds s cells) =
      (t == some true && (includeDeleted ||
        map.keeps s fun name => cells ⟨none, map.table.name, name⟩)) := by
  have alone : (f.isEmpty || f.holds s cells) = (t == some true) := by
    rcases h with ⟨rfl, rfl⟩ | ⟨c, hc, rfl⟩
    · rfl
    · exact (admits_of_condition? (condition?_of_operand hc) s cells).2
  unfold filterOf
  cases includeDeleted with
  | true => simpa using alone
  | false =>
      simp only [Bool.false_eq_true, if_false, Bool.false_or]
      cases hdeleted : (notDeleted map map.table.name context).1 with
      | none => rw [keeps_of_notDeleted hdeleted, Bool.and_true, ← alone]
      | some g =>
          obtain ⟨d, hd, truth⟩ := exists_condition_notDeleted hdeleted
          rw [← truth]
          rcases h with ⟨rfl, rfl⟩ | ⟨c, hc, rfl⟩
          · exact (admits_of_condition? (condition?_of_operand hd) s cells).2
          · have both := Fragment.condition?_eq_some_iff.mpr
              (.ofConjunction (Fragment.reads_and hc (.ofNegation (.ofOperand hd))))
            have written := (admits_of_condition? (condition?_of_operand hc) s cells).1
            simp only [written, Bool.false_eq_true, if_false]
            exact (admits_of_condition? both s cells).2.trans (Truth.and_beq_true _ _)

/-- The filter of a select leaves the rows on which the predicate is true, without those that are
marked as deleted. -/
theorem admits_of_selectFilter {d : SelectDraft} {f : Fragment} {context : Context}
    (hp : p.OfProperties) (hf : m.selectFilter map map.table.name d p = .ok (f, context))
    (includeDeleted : Bool) (s : Semantics) (cells : Valuation) :
    ((filterOf map includeDeleted f context).isEmpty ||
      (filterOf map includeDeleted f context).holds s cells) =
      map.selects s p includeDeleted fun name => cells ⟨none, map.table.name, name⟩ := by
  refine admits_filterOf includeDeleted context ?_
  rcases meaning_of_selectFilter hp hf with ⟨hempty, rfl⟩ | ⟨c, hc, truth⟩
  · exact .inl ⟨hempty, rfl⟩
  · exact .inr ⟨c, hc, truth s cells⟩

/-! ## The statement -/

/-- The statement that a draft becomes. -/
def SelectDraft.statement (map : EntityMap) (d : SelectDraft) (filter : Fragment)
    (orderBy : List (ColumnToken × Order)) (limit : Option Nat) : SelectStatement where
  table := map.table
  label := map.table.name
  columns := d.columns
  joins := d.joins
  filter := filter
  orderBy := orderBy
  limit := limit
  segments := d.segments

/-- What a select of the entity of `map` asks for, with the relations `ys`. -/
structure SelectStatement.Selects (map : EntityMap) (p : Predicate) (options : SelectOptions)
    (ys : List Inclusion) (st : SelectStatement) : Prop where
  table_eq : st.table = map.table
  label_eq : st.label = map.table.name
  joins_eq : st.joins = ys.map (·.join)
  limit_eq : st.limit = options.limit
  segments_eq : ∃ root, st.segments = root :: ys.map (·.segment) ∧ root.map = map ∧
    root.label = map.table.name ∧ root.Laid st.columns
  sound : ∀ y ∈ ys, y.Sound map.table.name options.includeDeleted st.columns
  admits : ∀ s cells, (st.filter.isEmpty || st.filter.holds s cells) =
    map.selects s p options.includeDeleted fun name => cells ⟨none, map.table.name, name⟩

/-- What the ordering mentions exists, and the relations that it goes through are included. -/
def Model.Orders (m : Model) (map : EntityMap) (includes : List String)
    (ordering : List (String × Order)) : Prop :=
  ∀ o ∈ ordering, ∃ resolved, m.resolve map o.1 = .ok resolved ∧
    ∀ r, resolved.token.relation = some r → r ∈ includes

/-- The statement is built when the predicate is accepted and about properties of the entity, the
relations are declared and different, and the ordering is understood. -/
theorem exists_select (hderived : map.Derived) {xs : List Included}
    (hxs : ∀ x ∈ xs, x.Declared m map) (hnodup : (xs.map (·.relation.property)).Nodup)
    (haccepts : m.Accepts map p) (hp : p.OfProperties) (options : SelectOptions)
    (horder : m.Orders map (xs.map (·.relation.property)) options.orderBy) :
    ∃ st ys, m.select map p (xs.map (·.relation.property)) options = .ok st ∧
      ys.map (·.included) = xs ∧ st.Selects map p options ys := by
  obtain ⟨d, ys, hd, rfl, h⟩ := SelectDraft.exists_includeRelations (m := m) hderived
    (SelectDraft.includes_start map options.includeDeleted { clause := .select }) hxs hnodup
  rw [List.nil_append] at h
  obtain ⟨f, context, hf⟩ := exists_selectFilter haccepts hp d
  obtain ⟨columns, hcolumns⟩ := SelectDraft.exists_orderColumns options.orderBy h
    (m := m) (by rwa [Model.Orders, List.map_map] at horder)
  refine ⟨d.statement map (filterOf map options.includeDeleted f context) columns options.limit, ys,
    ?_, rfl, rfl, rfl, h.joins_eq, rfl, h.segments_eq, h.sound,
    admits_of_selectFilter hp hf options.includeDeleted⟩
  simp only [Model.select, hd, ok_bind, hf, hcolumns]
  rfl

end

end GraphStore
