import GraphStore.Proofs.Model.Derived
import GraphStore.Proofs.Persist.Decision
import GraphStore.Proofs.Persist.Runs
import GraphStore.Proofs.Record.Keeping

/-!
# The inserts of a cascade

The inserts that a run issues, each with the place of its record, and how those of a record are
put together from those for its references, its own row and its collections. `Cascaded` ties them
to what was decided.
-/

set_option autoImplicit false

namespace GraphStore

/-! ## Inserts at places -/

/-- The inserts that were issued, each with the place of its record. -/
abbrev IssuedInserts := List (Place × InsertStatement)

namespace IssuedInserts

def places (issued : IssuedInserts) : List Place := issued.map Prod.fst

/-- The same inserts, seen from the record that owns item `i` of a slot. -/
def under (issued : IssuedInserts) (property : String) (i : Nat) : IssuedInserts :=
  issued.map fun p => ((property, i) :: p.1, p.2)

/-- The queries of the inserts, in order. -/
def queries {σ : Type} (issued : IssuedInserts) (store : Store σ) : List Query :=
  issued.flatMap fun p => store.insertQueries p.2

variable {issued issued' : IssuedInserts} {property : String} {i : Nat} {rest : Place}

@[simp] theorem places_append : places (issued ++ issued') = issued.places ++ issued'.places :=
  List.map_append

@[simp] theorem places_cons {p : Place × InsertStatement} :
    places (p :: issued) = p.1 :: issued.places := rfl

@[simp] theorem queries_append {σ : Type} (store : Store σ) :
    queries (issued ++ issued') store = issued.queries store ++ issued'.queries store :=
  List.flatMap_append

@[simp] theorem queries_under {σ : Type} (store : Store σ) :
    (issued.under property i).queries store = issued.queries store := by
  rw [queries, queries, under, List.flatMap_map]

theorem places_under :
    (issued.under property i).places = issued.places.map ((property, i) :: ·) := by
  rw [places, places, under, List.map_map, List.map_map]
  rfl

theorem mem_places_under : (property, i) :: rest ∈ (issued.under property i).places ↔
    rest ∈ issued.places := by
  simp [places_under]

/-! ### Inserts below a place -/

/-- The inserts at and below the item that a step leads to, seen from there. -/
def inside (issued : IssuedInserts) (step : String × Nat) : IssuedInserts :=
  issued.filterMap fun p =>
    match p.1 with
    | first :: rest => if first = step then some (rest, p.2) else none
    | [] => none

/-- The inserts at and below a place, seen from there. -/
def below (issued : IssuedInserts) (place : Place) : IssuedInserts := place.foldl inside issued

variable {step : String × Nat}

theorem inside_append :
    inside (issued ++ issued') step = issued.inside step ++ issued'.inside step :=
  List.filterMap_append

theorem inside_eq_nil (h : ∀ rest, step :: rest ∉ issued.places) : issued.inside step = [] := by
  refine List.filterMap_eq_nil_iff.mpr fun p hp => ?_
  obtain ⟨place, st⟩ := p
  cases place with
  | nil => rfl
  | cons first rest =>
      refine if_neg ?_
      rintro rfl
      exact h rest (List.mem_map_of_mem hp)

theorem inside_under : (issued.under property i).inside (property, i) = issued := by
  rw [inside, under, List.filterMap_map]
  have same : ∀ p : Place × InsertStatement, ((fun p : Place × InsertStatement =>
      match p.1 with
      | first :: rest => if first = (property, i) then some (rest, p.2) else none
      | [] => none) ∘ fun p => ((property, i) :: p.1, p.2)) p = some p := by
    intro p
    simp
  rw [List.filterMap_congr fun p _ => same p, List.filterMap_some]

theorem mem_inside {p : Place × InsertStatement} :
    p ∈ issued.inside step ↔ (step :: p.1, p.2) ∈ issued := by
  rw [inside, List.mem_filterMap]
  constructor
  · rintro ⟨⟨place, st⟩, hmem, heq⟩
    cases place with
    | nil => cases heq
    | cons first rest =>
        simp only [Option.ite_none_right_eq_some, Option.some.injEq] at heq
        obtain ⟨rfl, rfl⟩ := heq
        exact hmem
  · intro hmem
    exact ⟨_, hmem, by simp⟩

theorem mem_below {place : Place} {p : Place × InsertStatement} :
    p ∈ issued.below place ↔ (place ++ p.1, p.2) ∈ issued := by
  induction place generalizing issued with
  | nil => rfl
  | cons step place ih => rw [below, List.foldl_cons, ← below, ih, mem_inside, List.cons_append]

theorem below_append_left (h : ∀ rest', step :: rest' ∉ issued'.places) :
    below (issued ++ issued') (step :: rest) = issued.below (step :: rest) := by
  rw [below, List.foldl_cons, inside_append, inside_eq_nil h, List.append_nil]
  rfl

theorem below_append_right (h : ∀ rest', step :: rest' ∉ issued.places) :
    below (issued ++ issued') (step :: rest) = issued'.below (step :: rest) := by
  rw [below, List.foldl_cons, inside_append, inside_eq_nil h, List.nil_append]
  rfl

theorem below_under (place : Place) :
    (issued.under property i).below ((property, i) :: place) = issued.below place := by
  rw [below, List.foldl_cons, inside_under]
  rfl

/-- Every insert is of the record at its place in `final`. -/
def Describe (m : Model) (issued : IssuedInserts) (final : Record) : Prop :=
  ∀ p ∈ issued, ∃ record, final.at? p.1 = some record ∧ m.Describes p.2 record

end IssuedInserts

open IssuedInserts

/-! ## Rows -/

/-- An item of a relation is as its own insertion left it, which found it with the key of the owner
if it is an item of a collection. -/
def Model.Keyed (m : Model) (map : EntityMap) (r : RelationDef) (owner : Record)
    (item : Option Record) : Prop :=
  ∃ before given child, item = some child ∧ r.given map owner before = .ok given ∧
    Keeps m (fun _ => False) given child

/-- The row of a record was inserted between the inserts for its references and those for its
collections, seen from the record. It was `completed` by the keys of its references, nothing but
fields that are generated was assigned to it after that, and the items of its collections were
given its key. -/
structure Model.RowBetween (m : Model) (map : EntityMap) (given completed record : Record)
    (st : InsertStatement) (before after : IssuedInserts) : Prop where
  map_eq : m.entityMap record.type = .ok map
  kept : Keeps m (fun _ => False) given record
  describes : m.Describes st record
  generates : ∀ key, st.generatedKey = some key → map.Generates key.property
  under_references : ∀ place ∈ before.places, ∃ r ∈ map.relationsOf .manyToOne, ∃ i rest,
    place = (r.property, i) :: rest
  under_collections : ∀ place ∈ after.places, ∃ r ∈ map.relationsOf .oneToMany, ∃ i rest,
    place = (r.property, i) :: rest
  keys : m.withReferenceKeys record (map.relationsOf .manyToOne) given = .ok completed
  field?_eq : ∀ property, ¬ map.Generates property →
    record.field? property = completed.field? property
  items : ∀ r ∈ map.relationsOf .oneToMany, ∀ i, [(r.property, i)] ∈ after.places →
    m.Keyed map r record (r.related record)[i]?

/-- The inserts are those of the row of a record and of what is below the record. -/
def Model.InsertsRow (m : Model) (record : Record) (st : InsertStatement)
    (issued : IssuedInserts) : Prop :=
  ∃ map given completed before after, issued = before ++ ([], st) :: after ∧
    m.RowBetween map given completed record st before after

namespace IssuedInserts

/-- The insert is of the record at its place in `final`, among those that are below the place. -/
def IsRow (m : Model) (issued : IssuedInserts) (final : Record) (p : Place × InsertStatement) :
    Prop :=
  ∃ record, final.at? p.1 = some record ∧ m.InsertsRow record p.2 (issued.below p.1)

/-- Every insert is that of a row. -/
def Rows (m : Model) (issued : IssuedInserts) (final : Record) : Prop :=
  ∀ p ∈ issued, issued.IsRow m final p

variable {m : Model} {mid final : Record} {issued issued' : IssuedInserts} {property : String}
  {i : Nat}

theorem mem_places_of_mem {p : Place × InsertStatement} (h : p ∈ issued) : p.1 ∈ issued.places :=
  List.mem_map_of_mem h

theorem Rows.describe (h : issued.Rows m final) : issued.Describe m final := by
  intro p hp
  obtain ⟨record, hrecord, _, _, _, _, _, -, hrow⟩ := h p hp
  exact ⟨record, hrecord, hrow.describes⟩

theorem Rows.congr (h : issued.Rows m mid)
    (hat : ∀ place ∈ issued.places, final.at? place = mid.at? place) : issued.Rows m final := by
  intro p hp
  obtain ⟨record, hrecord, hrow⟩ := h p hp
  exact ⟨record, (hat p.1 (mem_places_of_mem hp)).trans hrecord, hrow⟩

/-- Later inserts that other steps lead to make no difference. -/
theorem Rows.append_left (h : issued.Rows m final) (hnil : [] ∉ issued.places)
    (apart : ∀ step rest rest', step :: rest ∈ issued.places → step :: rest' ∉ issued'.places) :
    ∀ p ∈ issued, IsRow m (issued ++ issued') final p := by
  rintro ⟨place, st⟩ hp
  obtain ⟨record, hrecord, hrow⟩ := h _ hp
  have hplace := mem_places_of_mem hp
  cases place with
  | nil => exact absurd hplace hnil
  | cons step rest =>
      refine ⟨record, hrecord, ?_⟩
      rwa [below_append_left fun rest' => apart step rest rest' hplace]

/-- Nor do earlier ones. -/
theorem Rows.append_right (h : issued'.Rows m final) (hnil : [] ∉ issued'.places)
    (apart : ∀ step rest rest', step :: rest ∈ issued.places → step :: rest' ∉ issued'.places) :
    ∀ p ∈ issued', IsRow m (issued ++ issued') final p := by
  rintro ⟨place, st⟩ hp
  obtain ⟨record, hrecord, hrow⟩ := h _ hp
  have hplace := mem_places_of_mem hp
  cases place with
  | nil => exact absurd hplace hnil
  | cons step rest =>
      refine ⟨record, hrecord, ?_⟩
      rwa [below_append_right fun rest' hmem => apart step rest' rest hmem hplace]

theorem Rows.append (h : issued.Rows m final) (h' : issued'.Rows m final)
    (hnil : [] ∉ issued.places) (hnil' : [] ∉ issued'.places)
    (apart : ∀ step rest rest', step :: rest ∈ issued.places → step :: rest' ∉ issued'.places) :
    Rows m (issued ++ issued') final := by
  intro p hp
  rcases List.mem_append.mp hp with hp | hp
  · exact h.append_left hnil apart p hp
  · exact h'.append_right hnil' apart p hp

/-- Seen from the owner of the record that the inserts are below. -/
theorem Rows.under (h : issued.Rows m mid)
    (hitem : (final.items property)[i]? = some mid) : (issued.under property i).Rows m final := by
  intro p hp
  obtain ⟨⟨place, st⟩, hp', rfl⟩ := List.mem_map.mp hp
  obtain ⟨record, hrecord, hrow⟩ := h _ hp'
  refine ⟨record, ?_, ?_⟩
  · rw [Record.at?_cons, hitem]
    exact hrecord
  · rwa [below_under]

end IssuedInserts

/-! ## What the parts of a run do -/

variable {σ : Type}

/-- What a run on a record did: `given` became `final`, and the inserts were issued. -/
structure Cascaded (m : Model) (forced : Bool) (given final : Record) (issued : IssuedInserts) :
    Prop where
  kept : Keeps m (fun _ => False) given final
  nodup : issued.places.Nodup
  rows : issued.Rows m final
  decided : ∀ place, m.inserts place forced given final = .ok (decide (place ∈ issued.places))

/-- What the part of a run for some relations of a record did. -/
structure BelowRelations (m : Model) (map : EntityMap) (owner : Record) (rs : List RelationDef)
    (given final : Record) (issued : IssuedInserts) : Prop where
  type_eq : final.type = given.type
  slot_eq : ∀ q, q ∉ rs.map (·.property) → final.slot? q = given.slot? q
  nodup : issued.places.Nodup
  rows : issued.Rows m final
  under : ∀ place ∈ issued.places, ∃ r ∈ rs, ∃ i rest, place = (r.property, i) :: rest
  keyed : ∀ r ∈ rs, ∀ i, [(r.property, i)] ∈ issued.places →
    m.Keyed map r owner (r.related final)[i]?
  decided : ∀ r ∈ rs, ∀ i rest,
    m.decidedBelow (m.inserts rest false) map r owner i given final =
      .ok (decide ((r.property, i) :: rest ∈ issued.places))

/-- What the part of a run for some items of a relation did. -/
structure BelowItems (m : Model) (map : EntityMap) (owner : Record) (r : RelationDef)
    (is : List Nat) (given final : Record) (issued : IssuedInserts) : Prop
    extends Record.OnlyItems r.property given final where
  item_eq : ∀ i, i ∉ is → (final.items r.property)[i]? = (given.items r.property)[i]?
  nodup : issued.places.Nodup
  rows : issued.Rows m final
  under : ∀ place ∈ issued.places, ∃ i ∈ is, ∃ rest, place = (r.property, i) :: rest
  keyed : ∀ i, [(r.property, i)] ∈ issued.places →
    m.Keyed map r owner (final.items r.property)[i]?
  decided : ∀ i ∈ is, ∀ rest,
    m.decidedItem (m.inserts rest false) map r owner (given.items r.property)[i]?
      (final.items r.property)[i]? = .ok (decide ((r.property, i) :: rest ∈ issued.places))

/-! ### Putting parts together -/

theorem IssuedInserts.nodup_append {issued issued' : IssuedInserts} (h : issued.places.Nodup)
    (h' : issued'.places.Nodup) (apart : ∀ place ∈ issued.places, place ∉ issued'.places) :
    (places (issued ++ issued')).Nodup := by
  rw [places_append]
  exact h.append h' fun place => apart place

theorem IssuedInserts.decide_append_left {issued issued' : IssuedInserts} {place : Place}
    (h : place ∉ issued'.places) :
    decide (place ∈ places (issued ++ issued')) = decide (place ∈ issued.places) := by
  simp [h]

theorem IssuedInserts.decide_append_right {issued issued' : IssuedInserts} {place : Place}
    (h : place ∉ issued.places) :
    decide (place ∈ places (issued ++ issued')) = decide (place ∈ issued'.places) := by
  simp [h]

namespace BelowItems

variable {m : Model} {map : EntityMap} {owner given mid final : Record} {r : RelationDef}
  {issued issued' : IssuedInserts} {i : Nat} {is : List Nat}

theorem under_mem (h : BelowItems m map owner r is given final issued) {rest : Place}
    (hmem : (r.property, i) :: rest ∈ issued.places) : i ∈ is := by
  obtain ⟨j, hj, _, heq⟩ := h.under _ hmem
  cases heq
  exact hj

/-- Nothing was done to the record. -/
theorem refl (h : ∀ i ∈ is, ∀ decision item, (given.items r.property)[i]? = item →
    m.decidedItem decision map r owner item item = .ok false) :
    BelowItems m map owner r is given given [] where
  toOnlyItems := .refl r.property given
  item_eq _ _ := rfl
  nodup := List.nodup_nil
  rows _ hp := absurd hp List.not_mem_nil
  under _ hp := absurd hp List.not_mem_nil
  keyed _ hp := absurd hp List.not_mem_nil
  decided i hi rest := by simpa [places] using h i hi _ _ rfl

/-- The item at place `i` was inserted with what is below it. -/
theorem of_cascaded {target : EntityMap} {child child' given' : Record}
    (htarget : m.target r = .ok target) (hitem : (given.items r.property)[i]? = some child)
    (hnew : target.hasEmptyKey child = .ok true) (hgiven : r.given map owner child = .ok given')
    (h : Cascaded m false given' child' issued) :
    BelowItems m map owner r [i] given
      (given.withItems r.property ((given.items r.property).set i child'))
      (issued.under r.property i) := by
  have items :=
    Record.items_withItems_of_item hitem ((given.items r.property).set i child')
  have inside : i < (given.items r.property).length := (List.getElem?_eq_some_iff.mp hitem).1
  have here := List.getElem?_set_self (a := child') inside
  rw [← items] at here
  exact {
    toOnlyItems := .of_withItems given r.property _
    item_eq := fun j hj => by
      rw [items, List.getElem?_set_ne (fun equal => hj (by simp [equal]))]
    nodup := by
      rw [places_under]
      exact h.nodup.map fun _ _ equal => (List.cons.inj equal).2
    rows := h.rows.under here
    under := by
      intro place hplace
      rw [places_under] at hplace
      obtain ⟨rest, -, rfl⟩ := List.mem_map.mp hplace
      exact ⟨i, by simp, rest, rfl⟩
    keyed := by
      intro j hplace
      rw [places_under] at hplace
      obtain ⟨rest, -, equal⟩ := List.mem_map.mp hplace
      cases equal
      exact ⟨child, given', child', here, hgiven, h.kept⟩
    decided := by
      intro j hj rest
      rw [List.mem_singleton.mp hj, here, hitem]
      simp only [mem_places_under]
      rw [Model.decidedItem_new htarget hnew hgiven]
      exact h.decided rest }

theorem nil_notMem (h : BelowItems m map owner r is given final issued) : [] ∉ issued.places := by
  intro hmem
  obtain ⟨_, _, _, heq⟩ := h.under [] hmem
  cases heq

/-- Inserts below different items are led to by different steps. -/
theorem apart (h : BelowItems m map owner r [i] given mid issued)
    (h' : BelowItems m map owner r is mid final issued') (fresh : i ∉ is) (step : String × Nat)
    (rest rest' : Place) (hmem : step :: rest ∈ issued.places) :
    step :: rest' ∉ issued'.places := by
  intro hmem'
  obtain ⟨j, hj, _, heq⟩ := h.under _ hmem
  cases heq
  exact fresh (List.mem_singleton.mp hj ▸ h'.under_mem hmem')

theorem cons (h : BelowItems m map owner r [i] given mid issued)
    (h' : BelowItems m map owner r is mid final issued') (fresh : i ∉ is) :
    BelowItems m map owner r (i :: is) given final (issued ++ issued') where
  toOnlyItems := h.toOnlyItems.trans h'.toOnlyItems
  item_eq j hj := by
    rw [List.mem_cons, not_or] at hj
    rw [h'.item_eq j hj.2, h.item_eq j (by simpa using hj.1)]
  nodup := by
    -- a place in both parts would name item `i` twice
    refine nodup_append h.nodup h'.nodup fun place hplace hplace' => ?_
    obtain ⟨j, hj, rest, rfl⟩ := h.under place hplace
    exact h.apart h' fresh _ rest rest hplace hplace'
  rows := by
    refine Rows.append (h.rows.congr fun place hplace => ?_) h'.rows h.nil_notMem h'.nil_notMem
      (h.apart h' fresh)
    obtain ⟨j, hj, rest, rfl⟩ := h.under place hplace
    -- the later items leave item `i` as it was
    rw [Record.at?_cons, Record.at?_cons, h'.item_eq j (List.mem_singleton.mp hj ▸ fresh)]
  under := by
    intro place hplace
    rw [places_append, List.mem_append] at hplace
    rcases hplace with hplace | hplace
    · obtain ⟨j, hj, rest, heq⟩ := h.under place hplace
      exact ⟨j, by simp [List.mem_singleton.mp hj], rest, heq⟩
    · obtain ⟨j, hj, rest, heq⟩ := h'.under place hplace
      exact ⟨j, List.mem_cons_of_mem i hj, rest, heq⟩
  keyed := by
    intro j hplace
    rw [places_append, List.mem_append] at hplace
    rcases hplace with hplace | hplace
    · rw [h'.item_eq j (List.mem_singleton.mp (h.under_mem hplace) ▸ fresh)]
      exact h.keyed j hplace
    · exact h'.keyed j hplace
  decided := by
    intro j hj rest
    rcases List.mem_cons.mp hj with rfl | hj
    · rw [h'.item_eq j fresh, h.decided j (by simp) rest,
        decide_append_left fun hmem => fresh (h'.under_mem hmem)]
    · have apart : j ∉ [i] := fun hmem => fresh (List.mem_singleton.mp hmem ▸ hj)
      rw [← h.item_eq j apart, h'.decided j hj rest,
        decide_append_right fun hmem => apart (h.under_mem hmem)]

end BelowItems

namespace BelowRelations

variable {m : Model} {map : EntityMap} {owner given mid final : Record} {r : RelationDef}
  {rs : List RelationDef} {issued issued' : IssuedInserts}

theorem refl (record : Record) : BelowRelations m map owner [] record record [] where
  type_eq := rfl
  slot_eq _ _ := rfl
  nodup := List.nodup_nil
  rows _ hp := absurd hp List.not_mem_nil
  under _ hp := absurd hp List.not_mem_nil
  keyed _ hr := absurd hr List.not_mem_nil
  decided _ hr := absurd hr List.not_mem_nil

theorem under_mem (h : BelowRelations m map owner rs given final issued) {property : String}
    {i : Nat} {rest : Place} (hmem : (property, i) :: rest ∈ issued.places) :
    property ∈ rs.map (·.property) := by
  obtain ⟨r, hr, _, _, heq⟩ := h.under _ hmem
  cases heq
  exact List.mem_map_of_mem hr

theorem nil_notMem (h : BelowRelations m map owner rs given mid issued) : [] ∉ issued.places := by
  intro hmem
  obtain ⟨_, _, _, _, heq⟩ := h.under [] hmem
  cases heq

/-- Inserts for different relations are led to by different steps. -/
theorem apart (h : BelowRelations m map owner [r] given mid issued)
    (h' : BelowRelations m map owner rs mid final issued')
    (fresh : r.property ∉ rs.map (·.property)) (step : String × Nat) (rest rest' : Place)
    (hmem : step :: rest ∈ issued.places) : step :: rest' ∉ issued'.places := by
  intro hmem'
  obtain ⟨r', hr', i, _, heq⟩ := h.under _ hmem
  cases heq
  exact fresh (List.mem_singleton.mp hr' ▸ h'.under_mem hmem')

theorem cons (h : BelowRelations m map owner [r] given mid issued)
    (h' : BelowRelations m map owner rs mid final issued')
    (fresh : r.property ∉ rs.map (·.property)) :
    BelowRelations m map owner (r :: rs) given final (issued ++ issued') where
  type_eq := h'.type_eq.trans h.type_eq
  slot_eq q hq := by
    rw [List.map_cons, List.mem_cons, not_or] at hq
    exact (h'.slot_eq q hq.2).trans (h.slot_eq q (by simpa using hq.1))
  nodup := by
    -- the slots of two relations are apart, so no place is in both parts
    refine nodup_append h.nodup h'.nodup fun place hplace hplace' => ?_
    obtain ⟨r', hr', i, rest, rfl⟩ := h.under place hplace
    exact h.apart h' fresh _ rest rest hplace hplace'
  rows := by
    refine Rows.append (h.rows.congr fun place hplace => ?_) h'.rows h.nil_notMem h'.nil_notMem
      (h.apart h' fresh)
    obtain ⟨r', hr', i, rest, rfl⟩ := h.under place hplace
    exact Record.at?_congr (h'.slot_eq r'.property (List.mem_singleton.mp hr' ▸ fresh)) i rest
  under := by
    intro place hplace
    rw [places_append, List.mem_append] at hplace
    rcases hplace with hplace | hplace
    · obtain ⟨r', hr', i, rest, heq⟩ := h.under place hplace
      exact ⟨r', by simp [List.mem_singleton.mp hr'], i, rest, heq⟩
    · obtain ⟨r', hr', i, rest, heq⟩ := h'.under place hplace
      exact ⟨r', List.mem_cons_of_mem r hr', i, rest, heq⟩
  keyed := by
    intro r' hr' i hplace
    rw [places_append, List.mem_append] at hplace
    rcases List.mem_cons.mp hr' with rfl | hr'
    · have here := hplace.resolve_right fun hmem => fresh (h'.under_mem hmem)
      rw [RelationDef.related_congr (h'.slot_eq r'.property fresh)]
      exact h.keyed r' (by simp) i here
    · refine h'.keyed r' hr' i (hplace.resolve_left fun hmem => fresh ?_)
      have equal : r'.property = r.property := List.mem_singleton.mp (h.under_mem hmem)
      exact equal ▸ List.mem_map_of_mem hr'
  decided := by
    intro r' hr' i rest
    rcases List.mem_cons.mp hr' with rfl | hr'
    · rw [decide_append_left fun hmem => fresh (h'.under_mem hmem), ← h.decided r' (by simp) i rest,
        Model.decidedBelow, Model.decidedBelow,
        RelationDef.related_congr (h'.slot_eq r'.property fresh)]
    · have apart : r'.property ∉ [r].map (·.property) := by
        intro hmem
        have equal : r'.property = r.property := by simpa using hmem
        exact fresh (equal ▸ List.mem_map_of_mem hr')
      rw [decide_append_right fun hmem => apart (h.under_mem hmem), ← h'.decided r' hr' i rest,
        Model.decidedBelow, Model.decidedBelow,
        RelationDef.related_congr (h.slot_eq r'.property apart)]

/-- What was done to the items `is` of a slot was done to all related records. -/
theorem of_items {is : List Nat} (h : BelowItems m map owner r is given mid issued)
    (htype : final.type = mid.type) (hslots : final.slots = mid.slots)
    (seen : ∀ i ∈ is, (r.related given)[i]? = (given.items r.property)[i]? ∧
      (r.related mid)[i]? = (mid.items r.property)[i]?)
    (unseen : ∀ i, i ∉ is → (r.related given)[i]? = none) :
    BelowRelations m map owner [r] given final issued where
  type_eq := htype.trans h.type_eq
  slot_eq q hq := by
    rw [Record.slot?_congr hslots]
    exact h.slot_eq q (by simpa using hq)
  nodup := h.nodup
  rows := by
    refine h.rows.congr fun place hplace => ?_
    obtain ⟨i, -, rest, rfl⟩ := h.under place hplace
    exact Record.at?_congr (Record.slot?_congr hslots r.property) i rest
  under place hplace := by
    obtain ⟨i, -, rest, heq⟩ := h.under place hplace
    exact ⟨r, by simp, i, rest, heq⟩
  keyed r' hr' i hplace := by
    rw [List.mem_singleton.mp hr'] at hplace ⊢
    rw [RelationDef.related_congr (Record.slot?_congr hslots r.property),
      (seen i (h.under_mem hplace)).2]
    exact h.keyed i hplace
  decided r' hr' i rest := by
    rw [List.mem_singleton.mp hr', Model.decidedBelow,
      RelationDef.related_congr (Record.slot?_congr hslots r.property)]
    by_cases hi : i ∈ is
    · rw [(seen i hi).1, (seen i hi).2]
      exact h.decided i hi rest
    · have outside : (r.property, i) :: rest ∉ issued.places := fun hmem => hi (h.under_mem hmem)
      -- an item outside `is` leads to no record, so nothing is decided there
      rw [unseen i hi, Model.decidedItem_none]
      simp [outside]

/-- Nothing was done for a relation that leads to no record. -/
theorem of_unrelated (h : r.related given = []) : BelowRelations m map owner [r] given given [] :=
  .of_items (.refl fun _ hi => absurd hi List.not_mem_nil) rfl rfl
    (fun _ hi => absurd hi List.not_mem_nil) fun i _ => by rw [h]; rfl

end BelowRelations

/-! ## Records -/

section Records

variable {m : Model} {map : EntityMap} {forced : Bool} {given mid mid' final : Record}
  {references collections : IssuedInserts}

theorem kind_of_mem_relationsOf {kind : RelationKind} {r : RelationDef}
    (h : r ∈ map.relationsOf kind) : r.kind = kind := by
  simpa using (List.mem_filter.mp h).2

theorem mem_relationsOf {r : RelationDef} (h : r ∈ map.relations) : r ∈ map.relationsOf r.kind :=
  List.mem_filter.mpr ⟨h, by simp⟩

theorem nodup_relationsOf (h : map.Derived) (kind : RelationKind) :
    ((map.relationsOf kind).map (·.property)).Nodup :=
  h.relations_nodup.sublist (List.filter_sublist.map _)

/-- A slot belongs to relations of one kind only. -/
theorem notMem_relationsOf (h : map.Derived) {kind : RelationKind} {r : RelationDef}
    (hr : r ∈ map.relations) (hkind : r.kind ≠ kind) :
    r.property ∉ (map.relationsOf kind).map (·.property) := by
  intro hmem
  obtain ⟨r', hr', equal⟩ := List.mem_map.mp hmem
  have found := h.relation?_of_mem (List.mem_filter.mp hr').1
  rw [equal, h.relation?_of_mem hr] at found
  cases found
  exact hkind (kind_of_mem_relationsOf hr')

/-- Relations of different kinds have slots of their own. -/
theorem property_ne_of_kinds (hderived : map.Derived) {kind kind' : RelationKind}
    {r r' : RelationDef} (hr : r ∈ map.relationsOf kind) (hr' : r' ∈ map.relationsOf kind')
    (apart : kind ≠ kind') : r.property ≠ r'.property := by
  intro equal
  have hkind : r.kind ≠ kind' := (kind_of_mem_relationsOf hr).symm ▸ apart
  exact notMem_relationsOf hderived (List.mem_filter.mp hr).1 hkind
    (List.mem_map.mpr ⟨r', hr', equal.symm⟩)

theorem Cascaded.of_stored (hmap : m.entityMap given.type = .ok map)
    (h : Model.entered map forced given = .ok false) : Cascaded m forced given given [] where
  kept := .refl given
  nodup := List.nodup_nil
  rows _ hp := absurd hp List.not_mem_nil
  decided place := by
    have unchosen : m.chosen map forced given given = .ok false := Model.chosen_of_not_entered h
    cases place with
    | nil => rw [Model.inserts_nil hmap, unchosen]; rfl
    | cons step rest =>
        obtain ⟨property, i⟩ := step
        cases hr : map.relation? property with
        | none => rw [Model.inserts_cons_of_none hmap hr]; rfl
        | some r =>
            have unreached : m.reached map r forced given given = .ok false := by
              unfold Model.reached
              cases r.kind <;> assumption
            rw [Model.inserts_cons_of_unreached hmap hr unreached]
            rfl

/-- The references of a record are decided about before its row, and not touched after it. -/
theorem BelowRelations.inserts_reference (hderived : map.Derived)
    (hmap : m.entityMap given.type = .ok map) (hentered : Model.entered map forced given = .ok true)
    {owner : Record}
    (h : BelowRelations m map owner (map.relationsOf .manyToOne) given mid references)
    (hslots : ∀ r ∈ map.relationsOf .manyToOne, final.slot? r.property = mid.slot? r.property)
    (howner : owner.fields = final.fields) {r : RelationDef} (hr : r ∈ map.relations)
    (hkind : r.kind = .manyToOne) (i : Nat) (rest : Place) :
    m.inserts ((r.property, i) :: rest) forced given final =
      .ok (decide ((r.property, i) :: rest ∈ references.places)) := by
  have mem : r ∈ map.relationsOf .manyToOne := hkind ▸ mem_relationsOf hr
  have reached : m.reached map r forced given final = .ok true := by
    simp only [Model.reached, hkind, hentered]
  rw [Model.inserts_cons_of_reached hmap (hderived.relation?_of_mem hr) reached,
    ← h.decided r mem i rest, Model.decidedBelow_congr_owner howner]
  simp only [Model.decidedBelow, RelationDef.related_congr (hslots r mem)]

/-- The row of a record is decided about with the keys of its references. -/
theorem BelowRelations.chosen_eq (hentered : Model.entered map forced given = .ok true)
    {completed : Record}
    (hkeys : m.withReferenceKeys mid (map.relationsOf .manyToOne) given = .ok completed)
    (hfields : completed.fields = mid.fields)
    (hslots : ∀ r ∈ map.relationsOf .manyToOne, final.slot? r.property = mid.slot? r.property) :
    m.chosen map forced given final = Model.entered map forced mid := by
  have hkeys' := (Model.withReferenceKeys_congr hslots).trans hkeys
  rw [Model.chosen_of_entered hentered hkeys', Model.entered_congr hfields]

/-- A place is the root, or below a relation, or leads through a slot that is no relation. -/
theorem place_cases (hderived : map.Derived) (place : Place) :
    place = [] ∨ (∃ r ∈ map.relations, ∃ i rest, place = (r.property, i) :: rest) ∨
      ∃ property i rest, place = (property, i) :: rest ∧ map.relation? property = none ∧
        property ∉ map.relations.map (·.property) := by
  cases place with
  | nil => exact .inl rfl
  | cons step rest =>
      obtain ⟨property, i⟩ := step
      by_cases hmem : property ∈ map.relations.map (·.property)
      · obtain ⟨r, hr, rfl⟩ := List.mem_map.mp hmem
        exact .inr (.inl ⟨r, hr, i, rest, rfl⟩)
      · refine .inr (.inr ⟨property, i, rest, rfl, Option.eq_none_iff_forall_ne_some.mpr ?_, hmem⟩)
        intro r hfound
        obtain ⟨hr, rfl⟩ := hderived.relation?_eq_some.mp hfound
        exact hmem (List.mem_map_of_mem hr)

namespace BelowRelations

variable {owner : Record} {kind : RelationKind} {issued : IssuedInserts}

theorem notMem_of_kind (h : BelowRelations m map owner (map.relationsOf kind) given mid issued)
    (hderived : map.Derived) {r : RelationDef} (hr : r ∈ map.relations) (hkind : r.kind ≠ kind)
    (i : Nat) (rest : Place) : (r.property, i) :: rest ∉ issued.places := fun hmem =>
  notMem_relationsOf hderived hr hkind (h.under_mem hmem)

theorem notMem_of_unknown (h : BelowRelations m map owner (map.relationsOf kind) given mid issued)
    {property : String} (hunknown : property ∉ map.relations.map (·.property)) (i : Nat)
    (rest : Place) : (property, i) :: rest ∉ issued.places := by
  intro hmem
  obtain ⟨r, hr, hproperty⟩ := List.mem_map.mp (h.under_mem hmem)
  exact hunknown (List.mem_map.mpr ⟨r, (List.mem_filter.mp hr).1, hproperty⟩)

end BelowRelations

/-- A record that no longer counts as new once its references are known: they were inserted,
nothing else was. -/
theorem Cascaded.of_dropped (hderived : map.Derived) (hmap : m.entityMap given.type = .ok map)
    (hentered : Model.entered map forced given = .ok true)
    (h : BelowRelations m map mid (map.relationsOf .manyToOne) given mid references)
    {completed : Record}
    (hkeys : m.withReferenceKeys mid (map.relationsOf .manyToOne) given = .ok completed)
    (hfields : completed.fields = mid.fields)
    (hdropped : Model.entered map forced mid = .ok false)
    (hkept : Keeps m (fun _ => False) given mid) : Cascaded m forced given mid references where
  kept := hkept
  nodup := h.nodup
  rows := h.rows
  decided place := by
    have unchosen : m.chosen map forced given mid = .ok false := by
      rw [BelowRelations.chosen_eq hentered hkeys hfields fun _ _ => rfl, hdropped]
    rcases place_cases hderived place with
      rfl | ⟨r, hr, i, rest, rfl⟩ | ⟨property, i, rest, rfl, hnone, hunknown⟩
    · rw [Model.inserts_nil hmap, unchosen, decide_eq_false h.nil_notMem]
    · cases hkind : r.kind with
      | manyToOne =>
          exact h.inserts_reference hderived hmap hentered (fun _ _ => rfl) rfl hr hkind i rest
      | oneToMany =>
          -- collections are reached only when the row is inserted
          have unreached : m.reached map r forced given mid = .ok false := by
            simp only [Model.reached, hkind, unchosen]
          rw [Model.inserts_cons_of_unreached hmap (hderived.relation?_of_mem hr) unreached,
            decide_eq_false (h.notMem_of_kind hderived hr (by simp [hkind]) i rest)]
    · rw [Model.inserts_cons_of_none hmap hnone,
        decide_eq_false (h.notMem_of_unknown hunknown i rest)]

end Records

/-- A record whose row was inserted between its references and its collections: `given` became `mid`
with its references, `mid'` with its row, and `final` with its collections. -/
structure InsertedBetween (m : Model) (map : EntityMap) (forced : Bool)
    (given mid mid' final : Record) (references : IssuedInserts) (st : InsertStatement)
    (collections : IssuedInserts) : Prop where
  derived : map.Derived
  map_eq : m.entityMap given.type = .ok map
  entered : Model.entered map forced given = .ok true
  references : ∃ owner : Record, owner.fields = final.fields ∧
    BelowRelations m map owner (map.relationsOf .manyToOne) given mid references
  keys : ∃ completed, m.withReferenceKeys mid (map.relationsOf .manyToOne) given = .ok completed ∧
    completed.fields = mid.fields
  new : Model.entered map forced mid = .ok true
  row : Edit.OnlyFields mid mid'
  collections : ∃ owner : Record, owner.fields = final.fields ∧
    BelowRelations m map owner (map.relationsOf .oneToMany) mid' final collections
  describes : m.Describes st final
  generates : ∀ key, st.generatedKey = some key → map.Generates key.property
  field?_eq : ∀ property, ¬ map.Generates property → final.field? property = mid.field? property
  kept : Keeps m (fun _ => False) given final

namespace InsertedBetween

variable {m : Model} {map : EntityMap} {forced : Bool} {given mid mid' final : Record}
  {references collections : IssuedInserts} {st : InsertStatement}

/-- Neither the row nor the collections touch the slots of the references. -/
theorem slot_eq (h : InsertedBetween m map forced given mid mid' final references st collections) :
    ∀ r ∈ map.relationsOf .manyToOne, final.slot? r.property = mid.slot? r.property := by
  intro r hr
  obtain ⟨_, -, below⟩ := h.collections
  have apart : r.property ∉ (map.relationsOf .oneToMany).map (·.property) :=
    notMem_relationsOf h.derived (List.mem_filter.mp hr).1 (by simp [kind_of_mem_relationsOf hr])
  rw [below.slot_eq r.property apart, Record.slot?_congr h.row.2]

/-- Neither the references nor the row touch the slots of the collections. -/
theorem related_eq
    (h : InsertedBetween m map forced given mid mid' final references st collections) :
    ∀ r ∈ map.relationsOf .oneToMany, r.related mid' = r.related given := by
  intro r hr
  obtain ⟨_, -, below⟩ := h.references
  have apart : r.property ∉ (map.relationsOf .manyToOne).map (·.property) :=
    notMem_relationsOf h.derived (List.mem_filter.mp hr).1 (by simp [kind_of_mem_relationsOf hr])
  rw [RelationDef.related_congr (Record.slot?_congr h.row.2 r.property),
    RelationDef.related_congr (below.slot_eq r.property apart)]

theorem chosen_eq
    (h : InsertedBetween m map forced given mid mid' final references st collections) :
    m.chosen map forced given final = .ok true := by
  obtain ⟨completed, hkeys, hfields⟩ := h.keys
  rw [BelowRelations.chosen_eq h.entered hkeys hfields h.slot_eq, h.new]

/-- The inserts for references and those for collections are below different slots. -/
theorem apart (h : InsertedBetween m map forced given mid mid' final references st collections) :
    ∀ step rest rest', step :: rest ∈ references.places → step :: rest' ∉ collections.places := by
  intro step rest rest' hplace
  obtain ⟨_, -, before⟩ := h.references
  obtain ⟨_, -, after⟩ := h.collections
  obtain ⟨r, hr, i, _, heq⟩ := before.under _ hplace
  cases heq
  exact after.notMem_of_kind h.derived (List.mem_filter.mp hr).1
    (by simp [kind_of_mem_relationsOf hr]) i rest'

theorem nodup (h : InsertedBetween m map forced given mid mid' final references st collections) :
    (places (references ++ ([], st) :: collections)).Nodup := by
  obtain ⟨_, -, before⟩ := h.references
  obtain ⟨_, -, after⟩ := h.collections
  refine nodup_append before.nodup (List.nodup_cons.mpr ⟨after.nil_notMem, after.nodup⟩) ?_
  intro place hplace hplace'
  rcases List.mem_cons.mp hplace' with rfl | hplace'
  · exact before.nil_notMem hplace
  · obtain ⟨r, hr, i, rest, rfl⟩ := before.under place hplace
    exact h.apart _ rest rest hplace hplace'

/-- The row of the record itself. -/
theorem insertsRow
    (h : InsertedBetween m map forced given mid mid' final references st collections) :
    m.InsertsRow final st (references ++ ([], st) :: collections) := by
  obtain ⟨_, -, before⟩ := h.references
  obtain ⟨owner, howner, after⟩ := h.collections
  obtain ⟨completed, hkeys, hfields⟩ := h.keys
  exact ⟨map, given, completed, references, collections, rfl, {
    map_eq := by rw [h.kept.type_eq, h.map_eq]
    kept := h.kept
    describes := h.describes
    generates := h.generates
    under_references := before.under
    under_collections := after.under
    keys := (Model.withReferenceKeys_congr h.slot_eq).trans hkeys
    field?_eq := fun property hfree => by
      rw [h.field?_eq property hfree, Record.field?_congr hfields]
    items := fun r hr i hplace => by
      unfold Model.Keyed
      rw [← RelationDef.given_congr howner]
      exact after.keyed r hr i hplace }⟩

theorem rows (h : InsertedBetween m map forced given mid mid' final references st collections) :
    IssuedInserts.Rows m (references ++ ([], st) :: collections) final := by
  obtain ⟨_, -, below⟩ := h.references
  obtain ⟨_, -, after⟩ := h.collections
  have before : references.Rows m final := below.rows.congr fun place hplace => by
    obtain ⟨r, hr, i, rest, rfl⟩ := below.under place hplace
    exact Record.at?_congr (h.slot_eq r hr) i rest
  intro p hp
  rcases List.mem_append.mp hp with hp | hp
  · refine before.append_left below.nil_notMem (fun step rest rest' hmem hmem' => ?_) p hp
    exact h.apart step rest rest' hmem (List.mem_of_ne_of_mem (List.cons_ne_nil _ _) hmem')
  · rcases List.mem_cons.mp hp with rfl | hp
    · exact ⟨final, rfl, h.insertsRow⟩
    · rw [List.append_cons]
      refine after.rows.append_right after.nil_notMem (fun step rest rest' hmem => ?_) p hp
      rw [places_append, List.mem_append] at hmem
      refine h.apart step rest rest' (hmem.resolve_right fun hmem => ?_)
      cases List.mem_singleton.mp hmem

/-- A collection is decided about as it was given, with the key of the final record. -/
theorem inserts_collection
    (h : InsertedBetween m map forced given mid mid' final references st collections)
    {r : RelationDef} (hr : r ∈ map.relations) (hkind : r.kind = .oneToMany) (i : Nat)
    (rest : Place) : m.inserts ((r.property, i) :: rest) forced given final =
      .ok (decide ((r.property, i) :: rest ∈ collections.places)) := by
  obtain ⟨owner, howner, below⟩ := h.collections
  have mem : r ∈ map.relationsOf .oneToMany := hkind ▸ mem_relationsOf hr
  have reached : m.reached map r forced given final = .ok true := by
    simp only [Model.reached, hkind, h.chosen_eq]
  have decided := below.decided r mem i rest
  rw [Model.decidedBelow, h.related_eq r mem, ← Model.decidedBelow,
    ← Model.decidedBelow_congr_owner howner.symm] at decided
  rw [Model.inserts_cons_of_reached h.map_eq (h.derived.relation?_of_mem hr) reached, decided]

theorem decided (h : InsertedBetween m map forced given mid mid' final references st collections)
    (place : Place) : m.inserts place forced given final =
      .ok (decide (place ∈ places (references ++ ([], st) :: collections))) := by
  obtain ⟨owner, howner, before⟩ := h.references
  obtain ⟨_, -, after⟩ := h.collections
  rcases place_cases h.derived place with
    rfl | ⟨r, hr, i, rest, rfl⟩ | ⟨property, i, rest, rfl, hnone, hunknown⟩
  · rw [Model.inserts_nil h.map_eq, h.chosen_eq, decide_eq_true (by simp)]
  · cases hkind : r.kind with
    | manyToOne =>
        have outside := after.notMem_of_kind h.derived hr (by simp [hkind]) i rest
        rw [before.inserts_reference h.derived h.map_eq h.entered h.slot_eq howner hr hkind i rest]
        simp [outside]
    | oneToMany =>
        have outside := before.notMem_of_kind h.derived hr (by simp [hkind]) i rest
        rw [h.inserts_collection hr hkind i rest]
        simp [outside]
  · have outside := before.notMem_of_unknown hunknown i rest
    have outside' := after.notMem_of_unknown hunknown i rest
    rw [Model.inserts_cons_of_none h.map_eq hnone]
    simp [outside, outside']

theorem cascaded
    (h : InsertedBetween m map forced given mid mid' final references st collections) :
    Cascaded m forced given final (references ++ ([], st) :: collections) where
  kept := h.kept
  nodup := h.nodup
  rows := h.rows
  decided := h.decided

end InsertedBetween

end GraphStore
