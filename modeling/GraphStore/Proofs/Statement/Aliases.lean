import GraphStore.Proofs.Statement.Numbering
import GraphStore.Proofs.Statement.Scoping

/-!
# The labels of a select

The uses of tables in a select are labelled by the name of the table, and from the second use of a
table on by the name with a number. The uses themselves are different (`nodup_usesAfter`), and so
are the labels with numbers; but a label with a number may be the name of another table. The labels
are different if and only if no table that takes part is called like a later use of another one
(`labels_nodup_iff`).
-/

set_option autoImplicit false

namespace GraphStore

/-! ## Uses of tables -/

/-- The label of the use of a table after `n` others of it. -/
def numberedLabel (table : String) (n : Nat) : String :=
  if n = 0 then table else table ++ "__" ++ toString n

/-- The uses of tables, one after another: each table with the number of its uses before. The tables
in `used` have been used already. -/
def usesAfter (used : List String) : List String → List (String × Nat)
  | [] => []
  | table :: tables => (table, used.count table) :: usesAfter (table :: used) tables

/-- The labels of tables that are used one after another. -/
def labelsOf (tables : List String) : List String :=
  (usesAfter [] tables).map fun use => numberedLabel use.1 use.2

theorem usesAfter_concat (used tables : List String) (table : String) :
    usesAfter used (tables ++ [table]) =
      usesAfter used tables ++ [(table, (tables.reverse ++ used).count table)] := by
  induction tables generalizing used with
  | nil => rfl
  | cons first tables ih =>
      rw [List.cons_append, usesAfter, usesAfter, ih, List.reverse_cons, List.append_assoc,
        List.singleton_append, List.cons_append]

theorem labelsOf_concat (tables : List String) (table : String) :
    labelsOf (tables ++ [table]) = labelsOf tables ++ [nextAlias tables.reverse table] := by
  rw [labelsOf, usesAfter_concat, List.append_nil, List.map_append]
  rfl

/-- A table is used as often as it is there, with the numbers from its uses before on. -/
theorem mem_usesAfter {used tables : List String} {table : String} {n : Nat} :
    (table, n) ∈ usesAfter used tables ↔
      used.count table ≤ n ∧ n < used.count table + tables.count table := by
  induction tables generalizing used with
  | nil => simp [usesAfter]
  | cons first tables ih =>
      rw [usesAfter, List.mem_cons, ih, Prod.mk.injEq]
      by_cases h : first = table
      · subst h
        simp only [true_and, List.count_cons_self]
        omega
      · rw [List.count_cons_of_ne h, List.count_cons_of_ne h]
        simp [Ne.symm h]

theorem nodup_usesAfter (used tables : List String) : (usesAfter used tables).Nodup := by
  induction tables generalizing used with
  | nil => exact List.nodup_nil
  | cons table tables ih =>
      rw [usesAfter, List.nodup_cons]
      refine ⟨fun again => ?_, ih (table :: used)⟩
      have later := (mem_usesAfter.mp again).1
      rw [List.count_cons_self] at later
      omega

/-! ## When labels are different -/

/-- Labels with numbers are different for different uses. -/
theorem numberedLabel_inj {table table' : String} {n n' : Nat} (hn : 0 < n) (hn' : 0 < n')
    (h : numberedLabel table n = numberedLabel table' n') : table = table' ∧ n = n' := by
  -- a number stands behind the table with an underscore, and behind another underscore
  have named : ∀ (t : String) (k : Nat), 0 < k →
      numberedLabel t k = t ++ "_" ++ "_" ++ toString k := by
    intro t k hk
    have underscores : "__" = "_" ++ "_" := by decide
    rw [numberedLabel, if_neg (by omega), underscores, ← String.append_assoc]
  rw [named table n hn, named table' n' hn'] at h
  obtain ⟨tables, numbers⟩ := eq_of_underscore h
  exact ⟨(String.append_left_inj "_").mp tables, numbers⟩

/-- **Labels are different unless a table is called like one of them.** -/
theorem nodup_labelsOf_iff (tables : List String) : (labelsOf tables).Nodup ↔
    ∀ table n, 0 < n → n < tables.count table → table ++ "__" ++ toString n ∉ tables := by
  have mem : ∀ {table n}, (table, n) ∈ usesAfter [] tables ↔ n < tables.count table := by
    intro table n
    simp [mem_usesAfter]
  rw [labelsOf, List.nodup_map_iff_inj_on (nodup_usesAfter [] tables)]
  constructor
  · intro different table n hn hcount taken
    -- the first use of the table with that name has the same label
    have first := mem.mpr (List.count_pos_iff.mpr taken)
    have same := different _ (mem.mpr hcount) _ first
      (by rw [numberedLabel, if_neg (by omega)]; rfl)
    exact absurd (Prod.mk.inj same).2 (by omega)
  · rintro free ⟨table, n⟩ huse ⟨table', n'⟩ huse' same
    have counted := mem.mp huse
    have counted' := mem.mp huse'
    dsimp only at same
    rcases Nat.eq_zero_or_pos n with rfl | hn <;> rcases Nat.eq_zero_or_pos n' with rfl | hn'
    · rw [numberedLabel, numberedLabel, if_pos rfl, if_pos rfl] at same
      rw [same]
    · rw [numberedLabel, numberedLabel, if_pos rfl, if_neg (by omega)] at same
      exact absurd (List.count_pos_iff.mp counted) (same ▸ free table' n' hn' counted')
    · rw [numberedLabel, numberedLabel, if_neg (by omega), if_pos rfl] at same
      exact absurd (List.count_pos_iff.mp counted') (same ▸ free table n hn counted)
    · obtain ⟨rfl, rfl⟩ := numberedLabel_inj hn hn' same
      rfl

/-! ## Selects that were built -/

/-- The tables of the draft have been given labels one after another. -/
structure SelectDraft.Labelled (root : String) (d : SelectDraft) : Prop where
  used_eq : d.used = (root :: d.joins.map (·.table.name)).reverse
  labels_eq : root :: d.joins.map (·.label) = labelsOf (root :: d.joins.map (·.table.name))

theorem SelectDraft.Labelled.includeRelation {m : Model} {map : EntityMap} {root name : String}
    {includeDeleted : Bool} {d d' : SelectDraft} (h : d.Labelled root)
    (hd : m.includeRelation map root includeDeleted d name = .ok d') : d'.Labelled root := by
  obtain ⟨x, -, -, -, rfl⟩ := exists_included_of_includeRelation hd
  obtain ⟨j, hjoins, htable, hlabel, hused⟩ : ∃ j : Join,
      (d.withRelation root includeDeleted x).joins = d.joins ++ [j] ∧
      j.table = x.target.table ∧ j.label = nextAlias d.used x.target.table.name ∧
      (d.withRelation root includeDeleted x).used = x.target.table.name :: d.used :=
    ⟨_, rfl, rfl, rfl, rfl⟩
  refine ⟨?_, ?_⟩
  · rw [hused, h.used_eq, hjoins, List.map_append, List.map_singleton, htable, ← List.cons_append,
      List.reverse_append, List.reverse_singleton, List.singleton_append]
  · rw [hjoins, List.map_append, List.map_append, List.map_singleton, List.map_singleton,
      ← List.cons_append, ← List.cons_append, labelsOf_concat, ← h.labels_eq, ← h.used_eq, hlabel,
      htable]

section

variable {m : Model} {map : EntityMap} {p : Predicate} {includes : List String}
  {options : SelectOptions} {st : SelectStatement}

/-- The labels of a select are those of its tables, the entity's and then those of the targets of
the relations that are included. -/
theorem labels_of_select (h : m.select map p includes options = .ok st) :
    ∃ targets : List EntityMap,
      List.Forall₂ (fun name target => ∃ r, map.relation? name = some r ∧ m.target r = .ok target)
        includes targets ∧
      st.labels = labelsOf ((map :: targets).map (·.table.name)) := by
  obtain ⟨d, -, -, -, hd, -, -, rfl⟩ := steps_of_select h
  have labelled : d.Labelled map.table.name := keeps_of_foldlM
    (P := SelectDraft.Labelled map.table.name)
    (fun _ _ _ kept hstep => kept.includeRelation hstep) ⟨rfl, rfl⟩ hd
  obtain ⟨ys, rfl, hosts⟩ := (SelectDraft.hosts_start m map options.includeDeleted
    { clause := .select }).includeRelations hd
  rw [List.nil_append] at hosts
  refine ⟨ys.map (·.included.target), ?_, ?_⟩
  · rw [List.forall₂_map_left_iff, List.forall₂_map_right_iff, List.forall₂_same]
    exact fun y hy => ⟨_, (hosts.hosted y hy).found, (hosts.hosted y hy).declared.target_eq⟩
  · have tables : d.joins.map (·.table.name) = (ys.map (·.included.target)).map (·.table.name) := by
      rw [hosts.joins_eq, List.map_map, List.map_map]
      exact List.map_congr_left fun y hy => congrArg TableRef.name (hosts.hosted y hy).table_eq
    rw [List.map_cons, ← tables, ← labelled.labels_eq]
    rfl

/-- **The labels of a select are different unless a table is called like one of them.** For every
select that is built, with any predicate and options: the labels of its tables are pairwise
different if and only if none of the tables that take part is called like a use of one of them
after the first, by its name, two underscores and a number below the number of its uses. So labels
are different whenever no table is used twice. -/
theorem labels_nodup_iff (h : m.select map p includes options = .ok st) :
    ∃ targets : List EntityMap,
      List.Forall₂ (fun name target => ∃ r, map.relation? name = some r ∧ m.target r = .ok target)
        includes targets ∧
      let tables := (map :: targets).map (·.table.name)
      (st.labels.Nodup ↔
        ∀ table n, 0 < n → n < tables.count table → table ++ "__" ++ toString n ∉ tables) := by
  obtain ⟨targets, htargets, hlabels⟩ := labels_of_select h
  refine ⟨targets, htargets, ?_⟩
  rw [hlabels]
  exact nodup_labelsOf_iff _

end

namespace Sample

/-- The authors and the editors of books are in one table, so that the second of them that is joined
has a label with a number. -/
theorem labels_nodup_iff_books : ∃ st,
    (model none none).select (mapOf Conformance.Library.book) (.constant true)
      ["editor", "reviews", "author"] {} = .ok st ∧
    st.labels = ["books", "authors", "reviews", "authors__1"] ∧
    ∃ targets : List EntityMap,
      List.Forall₂ (fun name target => ∃ r,
        (mapOf Conformance.Library.book).relation? name = some r ∧
          (model none none).target r = .ok target) ["editor", "reviews", "author"] targets ∧
      let tables := (mapOf Conformance.Library.book :: targets).map (·.table.name)
      (st.labels.Nodup ↔
        ∀ table n, 0 < n → n < tables.count table → table ++ "__" ++ toString n ∉ tables) := by
  have labels : ((model none none).select (mapOf Conformance.Library.book) (.constant true)
      ["editor", "reviews", "author"] {}).map (·.labels) =
      .ok ["books", "authors", "reviews", "authors__1"] := by decide +kernel
  obtain ⟨st, h, heq⟩ := ok_of_map labels
  exact ⟨st, h, heq, labels_nodup_iff h⟩

/-- An entity with a parent of the same table and a peer in another one. -/
def main : EntityType where
  prototype := mainPrototype
  declaration :=
    { table := "mains"
      columns := [generatedColumn "id", column "parent_id", column "peer_id"]
      relations := [(manyToOne "parent" "Main" "parent_id" "id").orNone,
        (manyToOne "peer" "Peer" "peer_id" "id").orNone] }

/-- The table is called like the second use of the other one. -/
def peer : EntityType where
  prototype := peerPrototype
  declaration := { table := "mains__1", columns := [generatedColumn "id", column "code"] }

/-- Two joins with one label: a further use of a table, and a table that is called so. -/
theorem labels_of_lookalike :
    ∃ st, (Model.mk [main, peer]).entityMap "Main" = .ok (mapOf main) ∧ ["parent", "peer"].Nodup ∧
      (Model.mk [main, peer]).select (mapOf main) (.constant true) ["parent", "peer"] {} = .ok st ∧
      st.labels = ["mains", "mains__1", "mains__1"] ∧ ¬ st.labels.Nodup := by
  have labels : ((Model.mk [main, peer]).select (mapOf main) (.constant true) ["parent", "peer"]
      {}).map (·.labels) = .ok ["mains", "mains__1", "mains__1"] := by decide +kernel
  obtain ⟨st, h, heq⟩ := ok_of_map labels
  exact ⟨st, rfl, by decide, h, heq, by rw [heq]; decide⟩

end Sample

end GraphStore
