import GraphStore.Proofs.Statement.Scoping
import GraphStore.Sql.Render
import GraphStore.Statement.Delete

/-!
# Paths through relations

What a path through a relation names is a column of another table, so that only a select that joins
this table can use it. The check is made on the columns that were written for the predicate
(`forall_goesThrough_iff`), in a deletion by asking for relations among them and in a select by
looking for the alias of the relation. A path that is looked for in an empty list is resolved, but
no column is written for it, and it is not checked. `accepted_iff_relations_joined` says which
predicates and orderings deletions and selects accept.
-/

set_option autoImplicit false

namespace GraphStore

open Fragment

/-! ## Paths without a column -/

namespace Predicate

mutual

/-- A path in a predicate is mentioned unless it is looked for in an empty list. -/
theorem mem_paths_iff (p : Predicate) {path : String} : path ∈ p.paths ↔
    path ∈ p.mentioned ∨ ∃ method, .call method path (.list []) ∈ p.leaves := by
  cases p with
  | compare op path' v => simp [paths, mentioned, leaves]
  | logical op ps => exact mem_pathsOfEach_iff ps
  | call method path' argument =>
      rcases argument with v | ⟨_ | ⟨v, vs⟩⟩ <;> simp [paths, mentioned, leaves]
  | not p => exact mem_paths_iff p
  | constant v => simp [paths, mentioned, leaves]

theorem mem_pathsOfEach_iff (ps : List Predicate) {path : String} : path ∈ pathsOfEach ps ↔
    path ∈ mentionedByEach ps ∨ ∃ method, .call method path (.list []) ∈ leavesOfEach ps := by
  cases ps with
  | nil => simp [pathsOfEach, mentionedByEach, leavesOfEach]
  | cons p ps =>
      rw [pathsOfEach, List.mem_append, mem_paths_iff p, mem_pathsOfEach_iff ps]
      simp only [mentionedByEach, leavesOfEach, List.mem_append, exists_or]
      tauto

end

end Predicate

/-! ## Relations of a compiled predicate -/

namespace Model

variable {m : Model} {map : EntityMap} {p : Predicate} {context : Context}

/-- The relations that the columns of a predicate are reached through are those that its paths go
through. -/
theorem forall_goesThrough_iff {negated : Bool} {f : Fragment} {after : Context}
    (h : m.compileWith map p negated context = .ok (f, after)) (P : String → Prop) :
    (∀ path ∈ p.mentioned, ∀ r, GoesThrough path r → P r) ↔
      ∀ c ∈ f.columns, ∀ r, c.relation = some r → P r := by
  refine forall_mem_iff_of_forall₂ (mentions_compileWith p negated h) fun path c leads => ?_
  obtain ⟨resolved, hresolved, rfl⟩ := leads
  exact forall_congr' fun r =>
    imp_congr_left (resolve_eq_ok_iff.mp hresolved).relation_eq_some_iff.symm

/-- A predicate over the table alone is accepted if none of its paths goes through a relation. -/
theorem exists_compileLocal_iff : (∃ result, m.compileLocal map p context = .ok result) ↔
    m.WellFormed map p ∧ ∀ path ∈ p.mentioned, ∀ r, ¬ GoesThrough path r := by
  have none_iff : ∀ f : Fragment,
      f.relations = [] ↔ ∀ c ∈ f.columns, ∀ r, c.relation = some r → False := by
    intro f
    rw [Fragment.relations, List.filterMap_eq_nil_iff]
    exact forall₂_congr fun c _ => Option.eq_none_iff_forall_ne_some
  constructor
  · rintro ⟨result, h⟩
    obtain ⟨⟨f, after⟩, hf, h⟩ := ok_of_bind h
    refine ⟨.of_compileWith hf, (forall_goesThrough_iff hf fun _ => False).mpr ?_⟩
    dsimp only at h
    split at h
    next none => exact (none_iff f).mp none
    next => cases h
  · rintro ⟨wellFormed, inside⟩
    obtain ⟨f, after, hf⟩ := (wellFormed_iff false context).mpr wellFormed
    have none := (none_iff f).mpr ((forall_goesThrough_iff hf fun _ => False).mp inside)
    refine ⟨(f, after), ?_⟩
    rw [compileLocal, compile, hf, ok_bind]
    simp only [none]
    rfl

end Model

/-! ## Relations of a draft -/

namespace SelectDraft

variable {m : Model} {map : EntityMap} {p : Predicate} {root : String} {d : SelectDraft}

/-- The relation has been joined under an alias. -/
def HasAlias (d : SelectDraft) (relation : String) : Prop :=
  (d.aliases.lookup relation).isSome = true

theorem exists_qualify_iff (root : String) {c : ColumnToken} :
    (∃ c', d.qualify root c = .ok c') ↔ ∀ r, c.relation = some r → d.HasAlias r := by
  unfold qualify HasAlias
  cases c.relation with
  | none => exact iff_of_true ⟨_, rfl⟩ nofun
  | some r =>
      simp only [Option.some.injEq, forall_eq']
      cases d.aliases.lookup r with
      | none => exact iff_of_false nofun nofun
      | some label => exact iff_of_true ⟨_, rfl⟩ rfl

theorem exists_qualifyTokens {ts : List Token}
    (h : ∀ c ∈ Fragment.columns ⟨ts⟩, ∃ c', d.qualify root c = .ok c') :
    ∃ ts', d.qualifyTokens root ts = .ok ts' := by
  have qualified : ∀ t ∈ ts, ∃ t', d.Qualifies root t t' := by
    intro t ht
    cases t with
    | column c =>
        obtain ⟨c', hc⟩ := h c (List.mem_filterMap.mpr ⟨_, ht, rfl⟩)
        exact ⟨_, c', hc, rfl⟩
    | text s => exact ⟨_, rfl⟩
    | param p => exact ⟨_, rfl⟩
  obtain ⟨ts', hts⟩ := exists_forall₂ qualified
  exact ⟨ts', qualifyTokens_eq_ok_iff.mpr hts.flip⟩

/-- The columns of a predicate are qualified if the relations that its paths go through have been
joined. -/
theorem exists_qualifyTokens_iff {negated : Bool} {f : Fragment} {context after : Context}
    (h : m.compileWith map p negated context = .ok (f, after)) :
    (∃ ts, d.qualifyTokens root f.tokens = .ok ts) ↔
      ∀ path ∈ p.mentioned, ∀ r, GoesThrough path r → d.HasAlias r := by
  rw [Model.forall_goesThrough_iff h]
  refine Iff.trans ?_ (forall₂_congr fun c _ => exists_qualify_iff root)
  refine ⟨fun ⟨ts, hts⟩ c hc => ?_, exists_qualifyTokens⟩
  obtain ⟨c', -, hc'⟩ := exists_of_mem_forall₂ (qualified_of_qualifyTokens hts).flip hc
  exact ⟨c', hc'⟩

theorem exists_selectFilter_iff : (∃ result, m.selectFilter map root d p = .ok result) ↔
    m.WellFormed map p ∧ ∀ path ∈ p.mentioned, ∀ r, GoesThrough path r → d.HasAlias r := by
  unfold Model.selectFilter
  split
  next =>
    -- nothing is compiled for the predicate that always holds, and there is nothing in it
    exact iff_of_true ⟨_, rfl⟩ ⟨nofun, nofun⟩
  next =>
    rw [exists_ok_bind_iff]
    constructor
    · rintro ⟨⟨f, after⟩, hf, h⟩
      obtain ⟨ts, hts, -⟩ := exists_ok_bind_iff.mp h
      exact ⟨.of_compileWith hf, (exists_qualifyTokens_iff hf).mp ⟨ts, hts⟩⟩
    · rintro ⟨wellFormed, joined⟩
      obtain ⟨f, after, hf⟩ := (Model.wellFormed_iff false d.context).mpr wellFormed
      obtain ⟨ts, hts⟩ := (exists_qualifyTokens_iff hf).mpr joined
      exact ⟨(f, after), hf, exists_ok_bind_iff.mpr ⟨ts, hts, _, rfl⟩⟩

theorem exists_orderColumns_iff {ordering : List (String × Order)} :
    (∃ columns, m.orderColumns map root d ordering = .ok columns) ↔
      ∀ o ∈ ordering, (∃ resolved, m.Names map o.1 resolved) ∧
        ∀ r, GoesThrough o.1 r → d.HasAlias r := by
  induction ordering with
  | nil => exact iff_of_true ⟨_, rfl⟩ nofun
  | cons o ordering ih =>
      rw [Model.orderColumns, exists_ok_bind_iff, List.forall_mem_cons, ← ih]
      have qualified : ∀ resolved, m.resolve map o.1 = .ok resolved →
          ((∃ token, d.qualify root resolved.token = .ok token) ↔
            ∀ r, GoesThrough o.1 r → d.HasAlias r) := by
        intro resolved hresolved
        rw [exists_qualify_iff]
        exact forall_congr' fun r =>
          imp_congr_left (Model.resolve_eq_ok_iff.mp hresolved).relation_eq_some_iff
      constructor
      · rintro ⟨resolved, hresolved, h⟩
        obtain ⟨token, htoken, h⟩ := exists_ok_bind_iff.mp h
        obtain ⟨rest, hrest, -⟩ := exists_ok_bind_iff.mp h
        exact ⟨⟨⟨resolved, Model.resolve_eq_ok_iff.mp hresolved⟩,
          (qualified resolved hresolved).mp ⟨token, htoken⟩⟩, rest, hrest⟩
      · rintro ⟨⟨⟨resolved, names⟩, joined⟩, rest, hrest⟩
        have hresolved := Model.resolve_eq_ok_iff.mpr names
        obtain ⟨token, htoken⟩ := (qualified resolved hresolved).mpr joined
        exact ⟨resolved, hresolved, exists_ok_bind_iff.mpr
          ⟨token, htoken, exists_ok_bind_iff.mpr ⟨rest, hrest, _, rfl⟩⟩⟩

theorem Hosts.hasAlias_iff {includeDeleted : Bool} {ys : List Inclusion}
    (h : d.Hosts m map includeDeleted ys) {relation : String} :
    d.HasAlias relation ↔ relation ∈ ys.map (·.included.relation.property) := by
  constructor
  · intro halias
    obtain ⟨label, hlabel⟩ := Option.isSome_iff_exists.mp halias
    obtain ⟨y, hy, rfl, -⟩ := h.exists_of_lookup hlabel
    exact List.mem_map_of_mem hy
  · intro hmem
    by_contra halias
    exact h.notMem_of_lookup (Bool.eq_false_iff.mpr halias) hmem

end SelectDraft

/-! ## Deletions and selects -/

namespace Model

variable {m : Model} {map : EntityMap} {p : Predicate} {includes : List String}
  {options : SelectOptions}

/-- A select is built if its relations can be joined, and its predicate and its ordering are
understood in the draft that has joined them. -/
theorem exists_select_iff : (∃ st, m.select map p includes options = .ok st) ↔
    ∃ d : SelectDraft, includes.foldlM
        (m.includeRelation map map.table.name options.includeDeleted)
        (SelectDraft.addSegment { used := [map.table.name], context := { clause := .select } } none
          map map.table.name) = .ok d ∧
      (∃ filter, m.selectFilter map map.table.name d p = .ok filter) ∧
      ∃ orderBy, m.orderColumns map map.table.name d options.orderBy = .ok orderBy := by
  constructor
  · rintro ⟨st, h⟩
    obtain ⟨d, f, context, orderBy, hd, hf, horder, -⟩ := steps_of_select h
    exact ⟨d, hd, ⟨_, hf⟩, orderBy, horder⟩
  · rintro ⟨d, hd, ⟨filter, hf⟩, orderBy, horder⟩
    simp only [select, hd, ok_bind, hf, horder]
    exact ⟨_, rfl⟩

/-- The relations that have an alias are those that are included. -/
theorem hasAlias_iff_mem {d : SelectDraft} {includeDeleted : Bool} {context : Context}
    (h : includes.foldlM (m.includeRelation map map.table.name includeDeleted)
      (SelectDraft.addSegment { used := [map.table.name], context } none map map.table.name) =
        .ok d) {relation : String} : d.HasAlias relation ↔ relation ∈ includes := by
  obtain ⟨ys, rfl, hosts⟩ :=
    (SelectDraft.hosts_start m map includeDeleted context).includeRelations h
  exact hosts.hasAlias_iff

/-- **Relations are used only where they are joined.** A deletion is built for the well-formed
predicates none of whose paths goes through a relation. A select that can join its relations is
built for the well-formed predicates and the orderings all of whose paths name something and go
through relations that are included. The paths of a predicate are here those that a column is
written for, which leaves out those that are looked for in an empty list. -/
theorem accepted_iff_relations_joined (m : Model) (map : EntityMap) (p : Predicate) :
    (∀ supply, (∃ result, m.deleteWhere map p supply = .ok result) ↔
      m.WellFormed map p ∧ ∀ path ∈ p.mentioned, ∀ r, ¬ GoesThrough path r) ∧
    ∀ includes options, (∃ st, m.select map p includes options = .ok st) ↔
      (∃ st, m.select map .always includes { options with orderBy := [] } = .ok st) ∧
      m.WellFormed map p ∧ (∀ o ∈ options.orderBy, ∃ resolved, m.Names map o.1 resolved) ∧
      ∀ path ∈ p.mentioned ++ options.orderBy.map (·.1), ∀ r, GoesThrough path r →
        r ∈ includes := by
  refine ⟨fun supply => ?_, fun includes options => ?_⟩
  · rw [deleteWhere, exists_ok_bind_iff, ← exists_compileLocal_iff]
    exact ⟨fun ⟨result, h, _⟩ => ⟨result, h⟩, fun ⟨result, h⟩ => ⟨result, h, _, rfl⟩⟩
  · rw [exists_select_iff, exists_select_iff]
    constructor
    · rintro ⟨d, hd, hf, horder⟩
      obtain ⟨wellFormed, joined⟩ := SelectDraft.exists_selectFilter_iff.mp hf
      have ordered := SelectDraft.exists_orderColumns_iff.mp horder
      refine ⟨⟨d, hd, ⟨_, rfl⟩, [], rfl⟩, wellFormed, fun o ho => (ordered o ho).1,
        fun path hpath r hr => (hasAlias_iff_mem hd).mp ?_⟩
      rcases List.mem_append.mp hpath with hpath | hpath
      · exact joined path hpath r hr
      · obtain ⟨o, ho, rfl⟩ := List.mem_map.mp hpath
        exact (ordered o ho).2 r hr
    · rintro ⟨⟨d, hd, -, -⟩, wellFormed, named, joined⟩
      have labelled : ∀ path ∈ p.mentioned ++ options.orderBy.map (·.1), ∀ r, GoesThrough path r →
          d.HasAlias r :=
        fun path hpath r hr => (hasAlias_iff_mem hd).mpr (joined path hpath r hr)
      refine ⟨d, hd, SelectDraft.exists_selectFilter_iff.mpr ⟨wellFormed, fun path hpath => ?_⟩,
        SelectDraft.exists_orderColumns_iff.mpr fun o ho => ⟨named o ho, ?_⟩⟩
      · exact labelled path (List.mem_append_left _ hpath)
      · exact labelled o.1 (List.mem_append_right _ (List.mem_map_of_mem ho))

/-- The team of a player is not joined, and looked for in an empty list: all players are deleted, or
selected. -/
theorem team_in_empty_list :
    let m := Sample.model none none
    let map := Sample.mapOf Conformance.Transactions.player
    let p : Predicate := .not (.call "in" "team.name" (.list []))
    GoesThrough "team.name" "team" ∧ (map.relation? "team").isSome = true ∧
      "team.name" ∈ p.paths ∧
      (∃ st supply, m.deleteWhere map p NumberedSupply.supply = .ok (st, supply) ∧
        (Dialect.sqlite.render st).sql = "DELETE FROM \"players\"\nWHERE 1 = 1;") ∧
      ∃ st, m.select map p [] {} = .ok st := by
  intro m map p
  have deletion : (m.deleteWhere map p NumberedSupply.supply).map
      (fun result => (Dialect.sqlite.render result.1).sql) =
      .ok "DELETE FROM \"players\"\nWHERE 1 = 1;" := by decide +kernel
  have selection : (m.select map p [] {}).map (·.label) = .ok "players" := by decide +kernel
  obtain ⟨⟨st, supply⟩, h, hsql⟩ := ok_of_map deletion
  obtain ⟨st', h', -⟩ := ok_of_map selection
  exact ⟨⟨by decide, "name", rfl⟩, by decide +kernel, List.mem_singleton_self _,
    ⟨st, supply, h, hsql⟩, st', h'⟩

end Model

end GraphStore
