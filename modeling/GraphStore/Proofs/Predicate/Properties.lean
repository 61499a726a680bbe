import GraphStore.Proofs.Predicate.WellFormed
import GraphStore.Proofs.Sql.Evaluation
import GraphStore.Statement.Select

/-!
# Predicates over properties

A predicate whose paths are properties of the entity itself has its truth from a row of the table
of the entity alone (`truth_pathValues`). Whether such a predicate is accepted does not depend on
the parameters named before it (`exists_compile`), and the columns that it is compiled to are
those of the table, so that a select leaves them as they are (`qualifyTokens_eq_ok`).
-/

set_option autoImplicit false

namespace GraphStore

open Fragment

/-! ## Paths -/

namespace Predicate

mutual

/-- The paths in a predicate. -/
def paths : Predicate → List String
  | compare _ path _ => [path]
  | logical _ ps => pathsOfEach ps
  | call _ path _ => [path]
  | not p => paths p
  | constant _ => []

def pathsOfEach : List Predicate → List String
  | [] => []
  | p :: ps => paths p ++ pathsOfEach ps

end

/-- The predicate is about properties of the entity itself: no path goes through a relation. -/
def OfProperties (p : Predicate) : Prop := ∀ path ∈ p.paths, '.' ∉ path.toList

mutual

/-- The truth of a predicate depends on what its paths lead to and on nothing else. -/
theorem truth_congr (s : Semantics) {v w : PathValues} (p : Predicate)
    (h : ∀ path ∈ p.paths, v path = w path) : p.truth s v = p.truth s w := by
  cases p with
  | compare op path value => rw [truth, truth, h path (by simp [paths])]
  | logical op ps => rw [truth, truth, truthEach_congr s ps h]
  | call method path argument => rw [truth, truth, h path (by simp [paths])]
  | not p => rw [truth, truth, truth_congr s p h]
  | constant b => rfl

theorem truthEach_congr (s : Semantics) {v w : PathValues} (ps : List Predicate)
    (h : ∀ path ∈ pathsOfEach ps, v path = w path) : truthEach s v ps = truthEach s w ps := by
  cases ps with
  | nil => rfl
  | cons p ps =>
      rw [truthEach, truthEach,
        truth_congr s p fun path hpath => h path (List.mem_append_left _ hpath),
        truthEach_congr s ps fun path hpath => h path (List.mem_append_right _ hpath)]

end

end Predicate

/-! ## What properties lead to -/

/-- What the properties of an entity lead to in a row of its table. -/
def EntityMap.propertyValues (map : EntityMap) (t : TableRow) : PathValues := fun property =>
  match map.column? property with
  | some c => t c.name
  | none => .null

namespace Model

variable {m : Model} {map : EntityMap}

theorem resolve_property {property : String} (h : '.' ∉ property.toList) :
    m.resolve map property =
      (map.column property).map fun c => ⟨c, ⟨none, map.table.name, c.name⟩⟩ := by
  simp only [resolve, Text.pathSegments_eq_property.mpr ⟨rfl, h⟩]
  cases map.column property <;> rfl

theorem pathValues_property {cells : Valuation} {t : TableRow} {property : String}
    (hcells : ∀ name, cells ⟨none, map.table.name, name⟩ = t name)
    (h : '.' ∉ property.toList) :
    m.pathValues map cells property = map.propertyValues t property := by
  rw [pathValues, resolve_property h, EntityMap.column, EntityMap.propertyValues]
  cases map.column? property with
  | none => rfl
  | some c => exact hcells c.name

/-- A predicate over properties has the truth of the row of the entity. -/
theorem truth_pathValues {s : Semantics} {cells : Valuation} {t : TableRow} {p : Predicate}
    (hcells : ∀ name, cells ⟨none, map.table.name, name⟩ = t name) (h : p.OfProperties) :
    p.truth s (m.pathValues map cells) = p.truth s (map.propertyValues t) :=
  Predicate.truth_congr s p fun property hp => pathValues_property hcells (h property hp)

end Model

/-! ## Acceptance -/

namespace Model

variable {m : Model} {map : EntityMap} {f : Fragment} {context after : Context}

/-- The compiler accepts the predicate. -/
def Accepts (m : Model) (map : EntityMap) (p : Predicate) : Prop :=
  ∃ f after, m.compile map p {} = .ok (f, after)

/-- A predicate that is accepted is accepted wherever it stands. -/
theorem exists_compile {p : Predicate} (h : m.Accepts map p) (context : Context) :
    ∃ f after, m.compile map p context = .ok (f, after) := by
  obtain ⟨f, after, hf⟩ := h
  exact (wellFormed_iff false context).mpr (.of_compileWith hf)

end Model

/-! ## Columns -/

namespace Predicate

mutual

theorem mentioned_subset (p : Predicate) : p.mentioned ⊆ p.paths := by
  cases p with
  | compare op path v => exact List.Subset.refl _
  | logical op ps => exact mentionedByEach_subset ps
  | call method path argument =>
      -- the path of an empty list is not mentioned
      rcases argument with v | ⟨_ | ⟨v, vs⟩⟩
      · exact List.Subset.refl _
      · exact List.nil_subset _
      · exact List.Subset.refl _
  | not p => exact mentioned_subset p
  | constant v => exact List.Subset.refl _

theorem mentionedByEach_subset (ps : List Predicate) : mentionedByEach ps ⊆ pathsOfEach ps := by
  cases ps with
  | nil => exact List.Subset.refl _
  | cons p ps =>
      refine List.append_subset.mpr ⟨?_, ?_⟩
      · exact List.subset_append_of_subset_left _ (mentioned_subset p)
      · exact List.subset_append_of_subset_right _ (mentionedByEach_subset ps)

end

end Predicate

namespace Model

variable {m : Model} {map : EntityMap} {f : Fragment} {context after : Context} {c : ColumnToken}

/-- A property leads to a column of the table itself. -/
theorem LeadsTo.isLocal {path : String} (hpath : '.' ∉ path.toList) (h : m.LeadsTo map path c) :
    c.relation = none ∧ c.table = map.table.name := by
  obtain ⟨resolved, hresolved, rfl⟩ := h
  rw [resolve_property hpath] at hresolved
  obtain ⟨column, -, rfl⟩ := ok_of_map hresolved
  exact ⟨rfl, rfl⟩

/-- Predicates over properties are compiled to conditions on the table itself. -/
theorem isLocal_of_mem_columns {p : Predicate} {negated : Bool} (hp : p.OfProperties)
    (h : m.compileWith map p negated context = .ok (f, after)) (hc : c ∈ f.columns) :
    c.relation = none ∧ c.table = map.table.name := by
  obtain ⟨path, hpath, leads⟩ := exists_of_mem_forall₂ (mentions_compileWith p negated h) hc
  exact leads.isLocal (hp path (p.mentioned_subset hpath))

end Model

namespace SelectDraft

variable {d : SelectDraft} {root : String} {ts ts' : List Token}

/-- A column is qualified; the other tokens stay as they are. -/
def Qualifies (d : SelectDraft) (root : String) : Token → Token → Prop
  | .column c, t' => ∃ c', d.qualify root c = .ok c' ∧ t' = .column c'
  | t, t' => t' = t

/-- Tokens are qualified one by one. -/
theorem qualifyTokens_eq_ok_iff :
    d.qualifyTokens root ts = .ok ts' ↔ List.Forall₂ (d.Qualifies root) ts ts' := by
  induction ts generalizing ts' with
  | nil =>
      rw [List.forall₂_nil_left_iff]
      refine ⟨fun h => (Except.ok.inj h).symm, ?_⟩
      rintro rfl
      rfl
  | cons t ts ih =>
      have kept : ∀ t, (d.qualifyTokens root ts >>= fun rest => pure (t :: rest)) = .ok ts' ↔
          ∃ t' rest, t' = t ∧ List.Forall₂ (d.Qualifies root) ts rest ∧ ts' = t' :: rest := by
        intro t
        constructor
        · intro h
          obtain ⟨rest, hrest, h⟩ := ok_of_bind h
          exact ⟨t, rest, rfl, ih.mp hrest, (Except.ok.inj h).symm⟩
        · rintro ⟨_, rest, rfl, hrest, rfl⟩
          rw [ih.mpr hrest]
          rfl
      rw [List.forall₂_cons_left_iff]
      cases t with
      | column c =>
          rw [qualifyTokens]
          constructor
          · intro h
            obtain ⟨c', hc, h⟩ := ok_of_bind h
            obtain ⟨_, rest, rfl, hrest, rfl⟩ := (kept _).mp h
            exact ⟨_, rest, ⟨c', hc, rfl⟩, hrest, rfl⟩
          · rintro ⟨_, rest, ⟨c', hc, rfl⟩, hrest, rfl⟩
            rw [hc, ok_bind]
            exact (kept _).mpr ⟨_, rest, rfl, hrest, rfl⟩
      | text s =>
          rw [qualifyTokens]
          · exact kept _
          · simp
      | param p =>
          rw [qualifyTokens]
          · exact kept _
          · simp

/-- Columns of the root stay as they are. -/
theorem qualifyTokens_eq_ok (d : SelectDraft)
    (h : ∀ c ∈ Fragment.columns ⟨ts⟩, c.relation = none ∧ c.table = root) :
    d.qualifyTokens root ts = .ok ts := by
  rw [qualifyTokens_eq_ok_iff, List.forall₂_same]
  intro t ht
  cases t with
  | column c =>
      obtain ⟨relation, table, name⟩ := c
      obtain ⟨rfl, rfl⟩ : relation = none ∧ table = root :=
        h _ (List.mem_filterMap.mpr ⟨_, ht, rfl⟩)
      exact ⟨_, rfl, rfl⟩
  | text s => rfl
  | param p => rfl

end SelectDraft

end GraphStore
