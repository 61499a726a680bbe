import GraphStore.Proofs.Predicate.Mentioned
import GraphStore.Proofs.Statement.Built
import GraphStore.Sample.Tables

/-!
# The scopes of a select

A select gives every table that takes part a label, and refers to columns by the labels of their
tables. Paths are resolved to tables first and are given labels later, from what the relations were
joined under; several relations may lead to one table, and a relation back to the entity itself.
`SelectStatement.Reaches` says which column of the statement stands for a path: for a path through
a relation, one with the label of the join and the segment that were made for just that relation.
In a select that was built every column is where it belongs, and every label that is used is
introduced (`wellScoped_of_select`).
-/

set_option autoImplicit false

namespace GraphStore

open Fragment

/-! ## Columns of conditions -/

/-- The columns of the condition that leaves deleted rows out: the mark is tested twice. -/
def EntityMap.markColumns (map : EntityMap) (label : String) : List ColumnToken :=
  match map.softDeleteColumn? with
  | none => []
  | some mark => [⟨none, label, mark.name⟩, ⟨none, label, mark.name⟩]

theorem columns_notDeleted (map : EntityMap) (label : String) (context : Context) :
    ((notDeleted map label context).1.elim [] columns) = map.markColumns label := by
  unfold notDeleted EntityMap.markColumns
  cases map.softDeleteColumn? with
  | none => rfl
  | some mark => simp [bindParam]

theorem EntityMap.eq_of_mem_markColumns {map : EntityMap} {label : String} {c : ColumnToken}
    (h : c ∈ map.markColumns label) : c.relation = none ∧ c.table = label := by
  unfold markColumns at h
  split at h
  · cases h
  · rcases List.mem_pair.mp h with rfl | rfl <;> exact ⟨rfl, rfl⟩

/-- The columns of the condition of a join. -/
def Included.onColumns (includeDeleted : Bool) (x : Included) (root label : String) :
    List ColumnToken :=
  [⟨none, label, x.foreign.name⟩, ⟨none, root, x.own.name⟩] ++
    if x.relation.kind = .oneToMany ∧ !includeDeleted then x.target.markColumns label else []

theorem Included.columns_condition (includeDeleted : Bool) (x : Included) (root label : String)
    (context : Context) :
    (x.condition includeDeleted root label context).1.columns =
      x.onColumns includeDeleted root label := by
  have kept := columns_notDeleted x.target label context
  unfold condition onColumns
  dsimp only
  split
  · split
    next f after heq =>
      rw [heq] at kept
      simp [← kept]
    next after heq =>
      rw [heq] at kept
      simp [← kept]
  · simp

theorem Included.eq_of_mem_onColumns {includeDeleted : Bool} {x : Included} {root label : String}
    {c : ColumnToken} (h : c ∈ x.onColumns includeDeleted root label) :
    c.relation = none ∧ (c.table = label ∨ c.table = root) := by
  rcases List.mem_append.mp h with h | h
  · rcases List.mem_pair.mp h with rfl | rfl
    · exact ⟨rfl, .inl rfl⟩
    · exact ⟨rfl, .inr rfl⟩
  · split at h
    · obtain ⟨hrelation, htable⟩ := EntityMap.eq_of_mem_markColumns h
      exact ⟨hrelation, .inl htable⟩
    · cases h

theorem columns_filterOf (map : EntityMap) (includeDeleted : Bool) (f : Fragment)
    (context : Context) :
    (filterOf map includeDeleted f context).columns =
      f.columns ++ if includeDeleted then [] else map.markColumns map.table.name := by
  have kept := columns_notDeleted map map.table.name context
  unfold filterOf
  cases includeDeleted with
  | true => simp
  | false =>
      simp only [Bool.false_eq_true, if_false]
      cases hdeleted : (notDeleted map map.table.name context).1 with
      | none =>
          rw [hdeleted] at kept
          simp [← kept]
      | some g =>
          rw [hdeleted] at kept
          dsimp only
          split
          next hempty =>
            have nothing : f.columns = [] := by rw [columns, List.isEmpty_iff.mp hempty]; rfl
            rw [nothing, ← kept]
            rfl
          next => simp [← kept]

/-! ## Scopes -/

namespace SelectStatement

section

variable (m : Model) (map : EntityMap) (includes : List String) (includeDeleted : Bool)

/-- The relation `r` is the one that is included at place `i`, and `j` and `seg` are the join and
the segment that were made for it. -/
structure Hosts (st : SelectStatement) (i : Nat) (r : RelationDef) (j : Join) (seg : Segment) :
    Prop where
  included : includes[i]? = some r.property
  declared : map.relation? r.property = some r
  join_eq : st.joins[i]? = some j
  segment_eq : st.segments[i + 1]? = some seg
  relation_eq : seg.relation = some r
  target_eq : m.target r = .ok seg.map
  table_eq : j.table = seg.map.table
  label_eq : seg.label = j.label
  on_eq : ∃ x : Included, x.Declared m map ∧ x.relation = r ∧
    j.on.columns = x.onColumns includeDeleted st.label j.label

/-- The column by which the statement refers to what a path leads to. -/
inductive Reaches (st : SelectStatement) : String → ColumnToken → Prop where
  | property {path property : String} {c : ColumnDef}
      (segments : Text.pathSegments path = [property]) (column : map.column? property = some c) :
      Reaches st path ⟨none, st.label, c.name⟩
  | related {path property : String} {i : Nat} {r : RelationDef} {j : Join} {seg : Segment}
      {c : ColumnDef} (segments : Text.pathSegments path = [r.property, property])
      (hosts : st.Hosts m map includes includeDeleted i r j seg)
      (column : seg.map.column? property = some c) :
      Reaches st path ⟨some r.property, j.label, c.name⟩

end

/-- The labels that are introduced, by the table itself and by the joins. -/
def labels (st : SelectStatement) : List String := st.label :: st.joins.map (·.label)

/-- The labels by which columns are referred to: those that are selected, and those of the
conditions and the ordering. -/
def usedLabels (st : SelectStatement) : List String :=
  (st.columns.filterMap fun | .column table _ _ => some table | .split _ => none) ++
    (st.joins.flatMap (·.on.columns) ++ st.filter.columns ++ st.orderBy.map (·.1)).map (·.table)

/-- Every column of the select is where it belongs. -/
structure WellScoped (m : Model) (map : EntityMap) (p : Predicate) (includes : List String)
    (options : SelectOptions) (st : SelectStatement) : Prop where
  table_eq : st.table = map.table
  label_eq : st.label = map.table.name
  root : ∃ seg, st.segments[0]? = some seg ∧ seg.relation = none ∧ seg.map = map ∧
    seg.label = st.label
  nodup : includes.Nodup
  length_joins : st.joins.length = includes.length
  length_segments : st.segments.length = includes.length + 1
  /-- Every relation that is included has a join and a segment of its own. -/
  hosts : ∀ i < includes.length, ∃ r j seg,
    st.Hosts m map includes options.includeDeleted i r j seg
  /-- Behind the columns of the predicate, the mark of the entity is tested. -/
  filter : ∃ cs, List.Forall₂ (st.Reaches m map includes options.includeDeleted) p.mentioned cs ∧
    st.filter.columns = cs ++ if options.includeDeleted then [] else map.markColumns st.label
  ordering : List.Forall₂ (fun o c => c.2 = o.2 ∧
    st.Reaches m map includes options.includeDeleted o.1 c.1) options.orderBy st.orderBy
  on : ∀ j ∈ st.joins, ∀ c ∈ j.on.columns,
    c.relation = none ∧ (c.table = j.label ∨ c.table = st.label)
  introduced : st.usedLabels ⊆ st.labels

end SelectStatement

/-! ## Qualified columns -/

namespace SelectDraft

variable {m : Model} {map : EntityMap} {root : String} {d : SelectDraft}

theorem qualified_of_qualifyTokens {ts ts' : List Token}
    (h : d.qualifyTokens root ts = .ok ts') :
    List.Forall₂ (fun c c' => d.qualify root c = .ok c') (Fragment.columns ⟨ts⟩)
      (Fragment.columns ⟨ts'⟩) := by
  rw [qualifyTokens_eq_ok_iff] at h
  induction h with
  | nil => exact .nil
  | @cons t t' ts ts' ht _ ih =>
      cases t with
      | column c =>
          obtain ⟨c', hc, rfl⟩ := ht
          exact .cons hc ih
      | text s =>
          cases ht
          exact ih
      | param p =>
          cases ht
          exact ih

/-- The column stands for what the path leads to. -/
def Refers (m : Model) (map : EntityMap) (root : String) (d : SelectDraft) (path : String)
    (c' : ColumnToken) : Prop :=
  ∃ c, m.LeadsTo map path c ∧ d.qualify root c = .ok c'

theorem refers_of_selectFilter {p : Predicate} {f : Fragment} {context : Context}
    (h : m.selectFilter map root d p = .ok (f, context)) :
    List.Forall₂ (d.Refers m map root) p.mentioned f.columns := by
  unfold Model.selectFilter at h
  split at h
  · cases h
    exact .nil
  · obtain ⟨⟨g, after⟩, hg, h⟩ := ok_of_bind h
    obtain ⟨tokens, htokens, h⟩ := ok_of_bind h
    cases h
    exact forall₂_comp (Model.mentions_compileWith p false hg) (qualified_of_qualifyTokens htokens)

theorem refers_of_orderColumns {ordering : List (String × Order)}
    {columns : List (ColumnToken × Order)}
    (h : m.orderColumns map root d ordering = .ok columns) :
    List.Forall₂ (fun o c => c.2 = o.2 ∧ d.Refers m map root o.1 c.1) ordering columns := by
  induction ordering generalizing columns with
  | nil =>
      cases h
      exact .nil
  | cons o ordering ih =>
      rw [Model.orderColumns] at h
      obtain ⟨resolved, hresolved, h⟩ := ok_of_bind h
      obtain ⟨token, htoken, h⟩ := ok_of_bind h
      obtain ⟨rest, hrest, h⟩ := ok_of_bind h
      cases h
      exact .cons ⟨rfl, resolved.token, ⟨resolved, hresolved, rfl⟩, htoken⟩ (ih hrest)

end SelectDraft

/-! ## Drafts -/

/-- The join and the segment were made for the relation. -/
structure Inclusion.Hosted (m : Model) (map : EntityMap) (includeDeleted : Bool) (y : Inclusion) :
    Prop where
  declared : y.included.Declared m map
  found : map.relation? y.included.relation.property = some y.included.relation
  relation_eq : y.segment.relation = some y.included.relation
  map_eq : y.segment.map = y.included.target
  table_eq : y.join.table = y.included.target.table
  label_eq : y.segment.label = y.join.label
  on_eq : y.join.on.columns =
    y.included.onColumns includeDeleted map.table.name y.join.label

/-- The draft has joined the relations of `ys`, and knows the label of each. -/
structure SelectDraft.Hosts (m : Model) (map : EntityMap) (includeDeleted : Bool)
    (ys : List Inclusion) (d : SelectDraft) : Prop where
  joins_eq : d.joins = ys.map (·.join)
  segments_eq : ∃ root, d.segments = root :: ys.map (·.segment) ∧ root.relation = none ∧
    root.map = map ∧ root.label = map.table.name
  aliases_eq : d.aliases =
    (ys.map fun y => (y.included.relation.property, y.join.label)).reverse
  hosted : ∀ y ∈ ys, y.Hosted m map includeDeleted
  nodup : (ys.map (·.included.relation.property)).Nodup
  shown : ∀ table column name, .column table column name ∈ d.columns →
    table = map.table.name ∨ table ∈ ys.map (·.join.label)

namespace SelectDraft

variable {m : Model} {map : EntityMap} {includeDeleted : Bool} {ys : List Inclusion}
  {d d' : SelectDraft}

theorem eq_of_mem_columnsOf {label split table column name : String}
    (h : .column table column name ∈ columnsOf map label split) : table = label := by
  simp only [columnsOf, List.mem_cons, reduceCtorEq, List.mem_map, false_or] at h
  obtain ⟨c, -, hc⟩ := h
  exact (SelectColumn.column.inj hc).1.symm

theorem hosts_start (m : Model) (map : EntityMap) (includeDeleted : Bool) (context : Context) :
    (addSegment { used := [map.table.name], context } none map map.table.name).Hosts m map
      includeDeleted [] := by
  refine ⟨rfl, ⟨_, rfl, rfl, rfl, rfl⟩, rfl, by simp, List.nodup_nil, fun table column name h => ?_⟩
  exact .inl (eq_of_mem_columnsOf h)

/-- A relation that has a label is one of those that were joined, under that label. -/
theorem Hosts.exists_of_lookup (h : d.Hosts m map includeDeleted ys) {property label : String}
    (hlabel : d.aliases.lookup property = some label) :
    ∃ y ∈ ys, y.included.relation.property = property ∧ y.join.label = label := by
  obtain ⟨before, after, heq, -⟩ := List.lookup_eq_some_iff.mp hlabel
  have hmem : (property, label) ∈ d.aliases := by
    rw [heq]
    exact List.mem_append_right _ List.mem_cons_self
  rw [h.aliases_eq, List.mem_reverse] at hmem
  obtain ⟨y, hy, hpair⟩ := List.mem_map.mp hmem
  exact ⟨y, hy, (Prod.mk.inj hpair).1, (Prod.mk.inj hpair).2⟩

/-- A relation without a label has not been joined. -/
theorem Hosts.notMem_of_lookup (h : d.Hosts m map includeDeleted ys) {property : String}
    (hnew : (d.aliases.lookup property).isSome = false) :
    property ∉ ys.map (·.included.relation.property) := by
  intro hmem
  obtain ⟨y, hy, rfl⟩ := List.mem_map.mp hmem
  rw [Option.isSome_eq_false_iff, Option.isNone_iff_eq_none, List.lookup_eq_none_iff,
    h.aliases_eq] at hnew
  have differs := hnew _ (List.mem_reverse.mpr (List.mem_map_of_mem hy))
  simp at differs

/-- One more relation. -/
theorem Hosts.includeRelation (h : d.Hosts m map includeDeleted ys) {name : String}
    (hd : m.includeRelation map map.table.name includeDeleted d name = .ok d') :
    ∃ y, y.included.relation.property = name ∧ d'.Hosts m map includeDeleted (ys ++ [y]) := by
  obtain ⟨x, hx, hfound, hnew, rfl⟩ := exists_included_of_includeRelation hd
  obtain rfl : x.relation.property = name := EntityMap.property_of_relation? hfound
  have fresh := h.notMem_of_lookup hnew
  obtain ⟨root, hsegments, hroot⟩ := h.segments_eq
  -- what is added is known by its parts: the join, the segment and the label that they share
  obtain ⟨j, hjoins, htable, hlabel, hon⟩ : ∃ j : Join,
      (d.withRelation map.table.name includeDeleted x).joins = d.joins ++ [j] ∧
      j.table = x.target.table ∧ j.label = nextAlias d.used x.target.table.name ∧
      j.on.columns = x.onColumns includeDeleted map.table.name
        (nextAlias d.used x.target.table.name) :=
    ⟨_, rfl, rfl, rfl, x.columns_condition includeDeleted map.table.name _ d.context⟩
  obtain ⟨seg, hadded, hrelation, hmap, hseglabel⟩ : ∃ seg : Segment,
      (d.withRelation map.table.name includeDeleted x).segments = d.segments ++ [seg] ∧
      seg.relation = some x.relation ∧ seg.map = x.target ∧
      seg.label = nextAlias d.used x.target.table.name := ⟨_, rfl, rfl, rfl, rfl⟩
  have haliases : (d.withRelation map.table.name includeDeleted x).aliases =
      (x.relation.property, j.label) :: d.aliases := by
    rw [hlabel]
    rfl
  refine ⟨⟨x, j, seg⟩, rfl, ?_, ⟨root, ?_, hroot⟩, ?_, fun y hy => ?_, ?_, fun t c n hc => ?_⟩
  · rw [hjoins, h.joins_eq, List.map_append, List.map_singleton]
  · rw [hadded, hsegments, List.map_append, List.map_singleton, List.cons_append]
  · rw [haliases, h.aliases_eq, List.map_append, List.map_singleton, List.reverse_append,
      List.reverse_singleton, List.singleton_append]
  · rcases List.mem_append.mp hy with hy | hy
    · exact h.hosted y hy
    · rw [List.mem_singleton.mp hy]
      exact ⟨hx, hfound, hrelation, hmap, htable, hseglabel.trans hlabel.symm,
        hon.trans (by rw [hlabel])⟩
  · rw [List.map_append, List.map_singleton]
    exact h.nodup.append (List.nodup_singleton _) (List.disjoint_singleton.mpr fresh)
  · rw [List.map_append, List.map_singleton, List.mem_append, List.mem_singleton, hlabel,
      ← or_assoc]
    rcases List.mem_append.mp hc with hc | hc
    · exact .inl (h.shown t c n hc)
    · exact .inr (eq_of_mem_columnsOf hc)

/-- All relations, one after another. -/
theorem Hosts.includeRelations (h : d.Hosts m map includeDeleted ys) {names : List String}
    (hd : names.foldlM (m.includeRelation map map.table.name includeDeleted) d = .ok d') :
    ∃ zs, zs.map (·.included.relation.property) = names ∧
      d'.Hosts m map includeDeleted (ys ++ zs) := by
  induction names generalizing d ys with
  | nil =>
      cases hd
      exact ⟨[], rfl, by rwa [List.append_nil]⟩
  | cons name names ih =>
      rw [List.foldlM_cons] at hd
      obtain ⟨d₁, hd₁, hd₂⟩ := ok_of_bind hd
      obtain ⟨y, rfl, h₁⟩ := h.includeRelation hd₁
      obtain ⟨zs, rfl, h₂⟩ := ih h₁ hd₂
      exact ⟨y :: zs, rfl, by rwa [List.append_cons]⟩

/-- The condition of a join is about the two tables that are joined. -/
theorem Hosts.eq_of_mem_on (h : d.Hosts m map includeDeleted ys) {j : Join} (hj : j ∈ d.joins)
    {c : ColumnToken} (hc : c ∈ j.on.columns) :
    c.relation = none ∧ (c.table = j.label ∨ c.table = map.table.name) := by
  rw [h.joins_eq] at hj
  obtain ⟨y, hy, rfl⟩ := List.mem_map.mp hj
  rw [(h.hosted y hy).on_eq] at hc
  exact Included.eq_of_mem_onColumns hc

/-! ## From drafts to statements -/

section

variable (filter : Fragment) (orderBy : List (ColumnToken × Order)) (limit : Option Nat)

/-- The join and the segment of a relation are found at its place among the relations. -/
theorem Hosts.statement_hosts (h : d.Hosts m map includeDeleted ys) {i : Nat} {y : Inclusion}
    (hy : ys[i]? = some y) :
    (d.statement map filter orderBy limit).Hosts m map (ys.map (·.included.relation.property))
      includeDeleted i y.included.relation y.join y.segment := by
  obtain ⟨declared, found, relation, target, table, label, on⟩ :=
    h.hosted y (List.mem_of_getElem? hy)
  obtain ⟨root, hsegments, -⟩ := h.segments_eq
  refine ⟨?_, found, ?_, ?_, relation, ?_, ?_, label, y.included, declared, rfl, on⟩
  · rw [List.getElem?_map, hy]
    rfl
  · change d.joins[i]? = _
    rw [h.joins_eq, List.getElem?_map, hy]
    rfl
  · change d.segments[i + 1]? = _
    rw [hsegments, List.getElem?_cons_succ, List.getElem?_map, hy]
    rfl
  · rw [target]
    exact declared.target_eq
  · rw [table, target]

/-- A column that is qualified is the one by which the statement refers to its path. -/
theorem Hosts.reaches (h : d.Hosts m map includeDeleted ys) {path : String} {c : ColumnToken}
    (hc : d.Refers m map map.table.name path c) :
    (d.statement map filter orderBy limit).Reaches m map (ys.map (·.included.relation.property))
      includeDeleted path c := by
  obtain ⟨_, ⟨resolved, hresolved, rfl⟩, hqualify⟩ := hc
  cases Model.resolve_eq_ok_iff.mp hresolved with
  | property plain column =>
      cases hqualify
      exact .property (Text.pathSegments_eq_property.mpr ⟨rfl, plain⟩) column
  | @related name property r target c plain plain' hr htarget column =>
      obtain rfl : r.property = name := EntityMap.property_of_relation? hr
      have segments := Text.pathSegments_eq_related.mpr ⟨rfl, plain, plain'⟩
      cases hlabel : d.aliases.lookup r.property with
      | none =>
          simp only [qualify, hlabel] at hqualify
          cases hqualify
      | some label =>
          simp only [qualify, hlabel] at hqualify
          cases hqualify
          -- properties name relations, so that the relation with this label is that of the path
          obtain ⟨y, hy, hproperty, rfl⟩ := h.exists_of_lookup hlabel
          obtain ⟨i, hi⟩ := List.mem_iff_getElem?.mp hy
          have hosts := h.statement_hosts filter orderBy limit hi
          have same : y.included.relation = r := by
            have found := (h.hosted y hy).found
            rw [hproperty, hr] at found
            exact (Option.some.inj found).symm
          rw [same] at hosts
          have hmap : y.segment.map = target :=
            Except.ok.inj (hosts.target_eq.symm.trans htarget)
          refine .related segments hosts ?_
          rw [hmap]
          exact column

end

end SelectDraft

/-! ## Selects that were built -/

section

variable {m : Model} {map : EntityMap} {includes : List String} {includeDeleted : Bool}
  {st : SelectStatement} {path : String} {c : ColumnToken}

theorem SelectStatement.Reaches.mem_labels (h : st.Reaches m map includes includeDeleted path c) :
    c.table ∈ st.labels := by
  cases h with
  | property => exact List.mem_cons_self
  | related _ hosts _ =>
      exact List.mem_cons_of_mem _ (List.mem_map_of_mem (List.mem_of_getElem? hosts.join_eq))

/-- The labels that are used are introduced if those of the columns are, wherever these stand. -/
theorem SelectStatement.usedLabels_subset
    (shown : ∀ table column name, .column table column name ∈ st.columns → table ∈ st.labels)
    (on : ∀ j ∈ st.joins, ∀ c ∈ j.on.columns, c.table ∈ st.labels)
    (filter : ∀ c ∈ st.filter.columns, c.table ∈ st.labels)
    (ordering : ∀ c ∈ st.orderBy, c.1.table ∈ st.labels) : st.usedLabels ⊆ st.labels := by
  intro label hlabel
  rcases List.mem_append.mp hlabel with hlabel | hlabel
  · obtain ⟨c, hc, heq⟩ := List.mem_filterMap.mp hlabel
    cases c with
    | split name => cases heq
    | column table column name =>
        cases heq
        exact shown _ column name hc
  · obtain ⟨c, hc, rfl⟩ := List.mem_map.mp hlabel
    rcases List.mem_append.mp hc with hc | hc
    · rcases List.mem_append.mp hc with hc | hc
      · obtain ⟨j, hj, hc⟩ := List.mem_flatMap.mp hc
        exact on j hj c hc
      · exact filter c hc
    · obtain ⟨o, ho, rfl⟩ := List.mem_map.mp hc
      exact ordering o ho

/-- **Every column of a select is where it belongs.** For every predicate, list of relations and
ordering with which a select is built: the columns of its filter are, one by one, those by which it
refers to the paths of the predicate, and then those of the mark of the entity; those of the
ordering are the ones for its paths; the condition of a join is about the two tables that are
joined; and every label that is used is introduced. -/
theorem wellScoped_of_select {p : Predicate} {options : SelectOptions}
    (h : m.select map p includes options = .ok st) :
    st.WellScoped m map p includes options := by
  obtain ⟨d, f, context, orderBy, hd, hf, horder, rfl⟩ := steps_of_select h
  obtain ⟨ys, rfl, hosts⟩ := (SelectDraft.hosts_start m map options.includeDeleted
    { clause := .select }).includeRelations hd
  rw [List.nil_append] at hosts
  generalize hfilter : filterOf map options.includeDeleted f context = filter
  have columns := columns_filterOf map options.includeDeleted f context
  rw [hfilter] at columns
  have mentioned := (SelectDraft.refers_of_selectFilter hf).imp fun path c hc =>
    hosts.reaches filter orderBy options.limit hc
  have ordered := (SelectDraft.refers_of_orderColumns horder).imp fun o c hc =>
    And.intro hc.1 (hosts.reaches filter orderBy options.limit hc.2)
  obtain ⟨root, hsegments, hroot⟩ := hosts.segments_eq
  refine
    { table_eq := rfl
      label_eq := rfl
      root := ⟨root, by rw [SelectDraft.statement, hsegments]; rfl, hroot⟩
      nodup := hosts.nodup
      length_joins := by
        rw [SelectDraft.statement, hosts.joins_eq, List.length_map, List.length_map]
      length_segments := by
        rw [SelectDraft.statement, hsegments, List.length_cons, List.length_map, List.length_map]
      hosts := fun i hi => ?_
      filter := ⟨f.columns, mentioned, columns⟩
      ordering := ordered
      on := fun j hj c hc => hosts.eq_of_mem_on hj hc
      introduced := ?_ }
  · rw [List.length_map] at hi
    have place := List.getElem?_eq_getElem hi
    exact ⟨_, _, _, hosts.statement_hosts filter orderBy options.limit place⟩
  · refine SelectStatement.usedLabels_subset (fun t c n hc => ?_) (fun j hj c hc => ?_)
      (fun c hc => ?_) (fun c hc => ?_)
    · rw [SelectStatement.labels, List.mem_cons, SelectDraft.statement, hosts.joins_eq,
        List.map_map]
      exact hosts.shown t c n hc
    · rcases (hosts.eq_of_mem_on hj hc).2 with hlabel | hlabel
      · rw [hlabel]
        exact List.mem_cons_of_mem _ (List.mem_map_of_mem hj)
      · rw [hlabel]
        exact List.mem_cons_self
    · change c ∈ filter.columns at hc
      rw [columns] at hc
      rcases List.mem_append.mp hc with hc | hc
      · obtain ⟨path, -, reaches⟩ := exists_of_mem_forall₂ mentioned hc
        exact reaches.mem_labels
      · split at hc
        · cases hc
        · rw [(EntityMap.eq_of_mem_markColumns hc).2]
          exact List.mem_cons_self
    · obtain ⟨o, -, -, reaches⟩ := exists_of_mem_forall₂ ordered hc
      exact reaches.mem_labels

end

/-- Books are selected by the name of their editor and ordered by that of their author, who is
stored in the same table and joined after the editor. -/
theorem wellScoped_of_select_books :
    let p : Predicate := .logical .and [.compare .equal "title" (.varchar (some "Ode")),
      .compare .equal "editor.name" (.varchar (some "Ann"))]
    let includes := ["editor", "reviews", "author"]
    let options : SelectOptions := { orderBy := [("author.name", .desc)] }
    ∃ st, (Sample.model none none).select (Sample.mapOf Conformance.Library.book) p includes
        options = .ok st ∧
      st.joins.map (·.label) = ["authors", "reviews", "authors__1"] ∧
      st.filter.columns = [⟨none, "books", "title"⟩, ⟨some "editor", "authors", "name"⟩,
        ⟨none, "books", "removed"⟩, ⟨none, "books", "removed"⟩] ∧
      st.orderBy = [(⟨some "author", "authors__1", "name"⟩, .desc)] ∧
      st.WellScoped (Sample.model none none) (Sample.mapOf Conformance.Library.book) p includes
        options := by
  intro p includes options
  have parts : ((Sample.model none none).select (Sample.mapOf Conformance.Library.book) p includes
      options).map (fun st => (st.joins.map (·.label), st.filter.columns, st.orderBy)) =
      .ok (["authors", "reviews", "authors__1"],
        [⟨none, "books", "title"⟩, ⟨some "editor", "authors", "name"⟩,
          ⟨none, "books", "removed"⟩, ⟨none, "books", "removed"⟩],
        [(⟨some "author", "authors__1", "name"⟩, .desc)]) := by decide +kernel
  obtain ⟨st, h, heq⟩ := ok_of_map parts
  obtain ⟨hjoins, heq⟩ := Prod.mk.inj heq
  obtain ⟨hfilter, horder⟩ := Prod.mk.inj heq
  exact ⟨st, h, hjoins, hfilter, horder, wellScoped_of_select h⟩

end GraphStore
