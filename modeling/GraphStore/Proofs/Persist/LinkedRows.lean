import GraphStore.Proofs.Persist.NewRecords

/-!
# Linked rows

The rows of a graph are inserted in an order in which every key is known before it is needed, and
are linked by these keys: the row of a record comes after those of its references and before those
of its collections, it is inserted with the keys of its references, and the items of its
collections are inserted with its key (`LinkedRow`). `linked_of_insertRecord` says so of every
insertion of a graph that fits the model (`Model.Fits`).
-/

set_option autoImplicit false

namespace GraphStore

open IssuedInserts

/-! ## Graphs that fit a model -/

namespace Model

/-- A relation can be between two records: the other record has the type that the relation leads
to, its foreign key is a column of the same type as the local key but for options, and that of an
item of a collection is not generated. -/
structure Relates (m : Model) (r : RelationDef) (owner child : Record) : Prop where
  type_eq : child.type = r.target
  foreignKey : ∀ target, m.target r = .ok target →
    (∃ c ∈ target.columns, c.property = r.foreignKey) ∧
      (r.kind = .oneToMany → ¬ target.Generates r.foreignKey)
  types : ∃ t t', owner.fieldType? r.localKey = some t ∧ child.fieldType? r.foreignKey = some t' ∧
    t.base = t'.base

/-- The record is typed, its references have local keys of their own that are not generated, and
its relations lead to records that they can lead to. -/
structure FitsRecord (m : Model) (map : EntityMap) (record : Record) : Prop where
  typed : record.Typed
  localKeys_nodup : ((map.relationsOf .manyToOne).map (·.localKey)).Nodup
  localKeys_given : ∀ r ∈ map.relationsOf .manyToOne, ¬ map.Generates r.localKey
  related : ∀ r ∈ map.relations, ∀ child ∈ r.related record, m.Relates r record child

/-- Every record of the graph that has a map fits it. -/
def Fits (m : Model) (root : Record) : Prop :=
  ∀ place record map, root.at? place = some record → m.entityMap record.type = .ok map →
    m.FitsRecord map record

variable {m : Model} {map : EntityMap} {extra : String → Prop}

theorem Relates.of_keeps {r : RelationDef} {owner owner' child child' : Record}
    {extra' : String → Prop} (relates : m.Relates r owner child)
    (howner : Keeps m extra owner owner') (hchild : Keeps m extra' child child') :
    m.Relates r owner' child' where
  type_eq := hchild.type_eq.trans relates.type_eq
  foreignKey := relates.foreignKey
  types := by
    obtain ⟨t, t', ht, ht', hbase⟩ := relates.types
    exact ⟨t, t', (howner.keepsTypes.fieldType?_eq _).trans ht,
      (hchild.keepsTypes.fieldType?_eq _).trans ht', hbase⟩

theorem FitsRecord.of_keeps {record record' : Record} (fits : m.FitsRecord map record)
    (h : Keeps m extra record record') : m.FitsRecord map record' where
  typed := h.keepsTypes.typed fits.typed
  localKeys_nodup := fits.localKeys_nodup
  localKeys_given := fits.localKeys_given
  related r hr child' hmem := by
    obtain ⟨i, hchild'⟩ := List.mem_iff_getElem?.mp hmem
    obtain ⟨child, hchild, hkept⟩ := h.exists_related hchild'
    exact (fits.related r hr child (List.mem_of_getElem? hchild)).of_keeps h hkept

/-- A graph that is kept fits as before. -/
theorem Fits.of_keeps {root root' : Record} (fits : m.Fits root) (h : Keeps m extra root root') :
    m.Fits root' := by
  intro place record' map hrecord' hmap
  obtain ⟨record, hrecord, hkept⟩ := h.exists_at? hrecord'
  rw [hkept.type_eq] at hmap
  exact (fits place record map hrecord hmap).of_keeps hkept

/-- A graph fits when its root does and what is in the slots of the root. -/
theorem Fits.of_items {root : Record}
    (hroot : ∀ map, m.entityMap root.type = .ok map → m.FitsRecord map root)
    (hitems : ∀ s ∈ root.slots, ∀ child ∈ s.items, m.Fits child) : m.Fits root := by
  intro place record map hrecord
  refine Record.forall_at?_of_items
    (P := fun record => m.entityMap record.type = .ok map → m.FitsRecord map record) (hroot map)
    (fun s hs child hchild place' record' hrecord' => ?_) place record hrecord
  exact hitems s hs child hchild place' record' map hrecord'

end Model

/-! ## Keys that are passed on -/

/-- The insert binds the value to the column of the property. -/
def EntityMap.Binds (map : EntityMap) (st : InsertStatement) (property : String) (v : Value) :
    Prop :=
  ∃ c ∈ map.columns, c.property = property ∧ ∃ a ∈ st.values, a.column = c.name ∧
    a.param.value = v

/-- The field of the record holds the key of another record, and the insert of the record binds
it. -/
def EntityMap.Receives (map : EntityMap) (st : InsertStatement) (record : Record)
    (property : String) (source : Record) (key : String) : Prop :=
  ∃ t v w, source.field? key = some v ∧ record.fieldType? property = some t ∧
    record.field? property = some w ∧ t.Takes v w ∧ map.Binds st property w

namespace Model

variable {m : Model} {map : EntityMap}

/-- Each reference that is set leaves the value of its key in its local key. -/
theorem exists_of_withReferenceKeys {rs : List RelationDef} {final given completed child : Record}
    {r : RelationDef} (h : m.withReferenceKeys final rs given = .ok completed)
    (hnodup : (rs.map (·.localKey)).Nodup) (hr : r ∈ rs)
    (hchild : final.reference? r.property = some child) :
    ∃ target t v w, m.target r = .ok target ∧ given.fieldType? r.localKey = some t ∧
      child.field? r.foreignKey = some v ∧ t.convert v = .ok w ∧
      completed.field? r.localKey = some w := by
  induction rs generalizing given with
  | nil => cases hr
  | cons r₀ rs ih =>
      rw [List.map_cons, List.nodup_cons] at hnodup
      rw [withReferenceKeys] at h
      rcases List.mem_cons.mp hr with rfl | hr
      · simp only [hchild] at h
        obtain ⟨target, htarget, h₁⟩ := ok_of_bind h
        obtain ⟨key, hkey, h₂⟩ := ok_of_bind h₁
        obtain ⟨assigned, hassign, h₃⟩ := ok_of_bind h₂
        obtain ⟨t, w, ht, hw, hfield⟩ := Record.exists_field?_of_setField hassign
        refine ⟨target, t, key, w, htarget, ht, EntityMap.read_eq_ok hkey, hw, ?_⟩
        -- the references after it have other local keys
        rw [field?_of_withReferenceKeys (fun r' hr' equal => ?_) h₃, hfield]
        exact absurd (equal ▸ List.mem_map_of_mem hr') hnodup.1
      · cases hfirst : final.reference? r₀.property with
        | none =>
            simp only [hfirst] at h
            exact ih h hnodup.2 hr
        | some child₀ =>
            simp only [hfirst] at h
            obtain ⟨target₀, -, h₁⟩ := ok_of_bind h
            obtain ⟨key₀, -, h₂⟩ := ok_of_bind h₁
            obtain ⟨assigned, hassign, h₃⟩ := ok_of_bind h₂
            rw [← Record.fieldType?_of_setField hassign]
            exact ih h₃ hnodup.2 hr

/-- A field that is neither generated nor the local key of a reference that is set is as it was. -/
theorem field?_of_keeps {given record : Record} {property : String}
    (h : Keeps m (fun _ => False) given record) (hmap : m.entityMap record.type = .ok map)
    (hgiven : ¬ map.Generates property)
    (hfree : ∀ r ∈ map.relationsOf .manyToOne, r.localKey = property →
      record.reference? r.property = none) :
    record.field? property = given.field? property := by
  by_contra changed
  rw [h.type_eq] at hmap
  rcases h.assigned changed with hassigns | impossible
  · cases hassigns with
    | generatedKey hmap' hcolumn hproperty =>
        rw [hmap] at hmap'
        cases hmap'
        exact hgiven ⟨_, .inl hcolumn, hproperty⟩
    | timestamp hmap' hcolumn hproperty =>
        rw [hmap] at hmap'
        cases hmap'
        exact hgiven ⟨_, .inr hcolumn, hproperty⟩
    | @localKey _ r child hmap' hr hproperty hchild =>
        rw [hmap] at hmap'
        cases hmap'
        have set := h.sameShape.isSome_reference? r.property
        rw [hfree r hr hproperty, hchild] at set
        cases set
  · exact impossible

end Model

/-! ## The order of the rows -/

namespace IssuedInserts

variable {issued issued' : IssuedInserts} {place rest : Place} {st : InsertStatement}

theorem below_append (issued issued' : IssuedInserts) (place : Place) :
    below (issued ++ issued') place = issued.below place ++ issued'.below place := by
  induction place generalizing issued issued' with
  | nil => rfl
  | cons step place ih =>
      rw [below, List.foldl_cons, inside_append]
      exact ih _ _

theorem below_cons_self : below ((place, st) :: issued) place = ([], st) :: issued.below place := by
  induction place generalizing issued with
  | nil => rfl
  | cons step place ih =>
      have here : inside ((step :: place, st) :: issued) step =
          (place, st) :: issued.inside step := by simp [inside]
      rw [below, List.foldl_cons, here]
      exact ih

theorem mem_places_below : rest ∈ (issued.below place).places ↔ place ++ rest ∈ issued.places := by
  constructor
  · intro h
    obtain ⟨p, hp, rfl⟩ := List.mem_map.mp h
    exact mem_places_of_mem (mem_below.mp hp)
  · intro h
    obtain ⟨⟨_, st⟩, hp, rfl⟩ := List.mem_map.mp h
    exact mem_places_of_mem (mem_below (p := (rest, st)).mpr hp)

end IssuedInserts

namespace Model

variable {m : Model} {map : EntityMap} {record given completed : Record} {st : InsertStatement}
  {issued before after : IssuedInserts}

/-- The row of the record itself is found at one place only. -/
theorem InsertsRow.between (h : m.InsertsRow record st (before ++ ([], st) :: after)) :
    ∃ map given completed, m.RowBetween map given completed record st before after := by
  obtain ⟨map, given, completed, before', after', hall, hrow⟩ := h
  have outside : ([], st) ∉ before' := fun hmem => by
    obtain ⟨_, _, _, _, heq⟩ := hrow.under_references _ (mem_places_of_mem hmem)
    cases heq
  have outside' : ([], st) ∉ after' := fun hmem => by
    obtain ⟨_, _, _, _, heq⟩ := hrow.under_collections _ (mem_places_of_mem hmem)
    cases heq
  obtain ⟨rfl, -, rfl⟩ := (List.append_cons_inj_of_notMem outside outside').mp hall.symm
  exact ⟨map, given, completed, hrow⟩

namespace RowBetween

/-- The rows of references come before that of the record. -/
theorem reference_notMem_after (h : m.RowBetween map given completed record st before after)
    {r : RelationDef} (hr : r ∈ map.relationsOf .manyToOne) (i : Nat) (rest : Place) :
    (r.property, i) :: rest ∉ after.places := by
  intro hmem
  obtain ⟨r', hr', _, _, heq⟩ := h.under_collections _ hmem
  exact property_ne_of_kinds (derived_of_entityMap h.map_eq) hr hr' (by decide)
    (congrArg Prod.fst (List.cons.inj heq).1)

/-- Those of collections come after it. -/
theorem item_notMem_before (h : m.RowBetween map given completed record st before after)
    {r : RelationDef} (hr : r ∈ map.relationsOf .oneToMany) (i : Nat) (rest : Place) :
    (r.property, i) :: rest ∉ before.places := by
  intro hmem
  obtain ⟨r', hr', _, _, heq⟩ := h.under_references _ hmem
  exact property_ne_of_kinds (derived_of_entityMap h.map_eq) hr hr' (by decide)
    (congrArg Prod.fst (List.cons.inj heq).1)

/-! ## The keys of the rows -/

/-- The column of a field that is not generated is bound to what the field holds. -/
theorem binds (h : m.RowBetween map given completed record st before after) {property : String}
    {v : Value} (hcolumn : ∃ c ∈ map.columns, c.property = property)
    (hgiven : ¬ map.Generates property) (hv : record.field? property = some v) :
    map.Binds st property v := by
  obtain ⟨c, hc, rfl⟩ := hcolumn
  obtain ⟨map', hmap', -, hvalues⟩ := h.describes
  rw [h.map_eq] at hmap'
  cases hmap'
  have mem : c ∈ map.columns.filter fun c => !(st.generatedKey.any (·.property == c.property)) := by
    refine List.mem_filter.mpr ⟨hc, ?_⟩
    -- the column is not the one that the database fills in
    cases hkey : st.generatedKey with
    | none => rfl
    | some key =>
        have apart : key.property ≠ c.property := fun equal =>
          hgiven (equal ▸ h.generates key hkey)
        simp [apart]
  have assigned :=
    List.mem_map_of_mem (f := fun c : ColumnDef => (c.name, record.field? c.property)) mem
  rw [← hvalues, hv] at assigned
  obtain ⟨a, ha, heq⟩ := List.mem_map.mp assigned
  simp only [Prod.mk.injEq, Option.some.injEq] at heq
  exact ⟨c, hc, rfl, a, ha, heq⟩

/-- The record is inserted with the key of every reference that is set. -/
theorem receives_reference (h : m.RowBetween map given completed record st before after)
    (fits : m.FitsRecord map record) {r : RelationDef} (hr : r ∈ map.relationsOf .manyToOne)
    {child : Record} (hchild : record.reference? r.property = some child)
    (htyped : ∀ target, m.entityMap child.type = .ok target → child.Typed) :
    map.Receives st record r.localKey child r.foreignKey := by
  have hrelation := (List.mem_filter.mp hr).1
  have hmem : child ∈ r.related record := by
    rw [(RelationDef.related_of_reference (kind_of_mem_relationsOf hr) hchild).1]
    exact List.mem_singleton_self child
  have relates := fits.related r hrelation child hmem
  have hgiven := fits.localKeys_given r hr
  obtain ⟨target, t, v, w, htarget, ht, hv, hconvert, hw⟩ :=
    exists_of_withReferenceKeys h.keys fits.localKeys_nodup hr hchild
  -- the local key has not been touched since the key was copied
  have ht' : record.fieldType? r.localKey = some t := (h.kept.keepsTypes.fieldType?_eq _).trans ht
  have hw' : record.field? r.localKey = some w := (h.field?_eq _ hgiven).trans hw
  obtain ⟨t₀, t', ht₀, hforeign, hbase⟩ := relates.types
  rw [ht'] at ht₀
  cases ht₀
  have typed : child.Typed := htyped target (by rw [relates.type_eq]; exact htarget)
  exact ⟨t, v, w, hv, ht', hw', FieldType.takes_of_convert hbase (typed _ _ _ hforeign hv) hconvert,
    h.binds ((derived_of_entityMap h.map_eq).localKey r hrelation) hgiven hw'⟩

/-- An item of a collection is inserted with the key of the record, unless a reference of the item
has that key for its own. -/
theorem receives_item (h : m.RowBetween map given completed record st before after)
    (fits : m.FitsRecord map record) {r : RelationDef} (hr : r ∈ map.relationsOf .oneToMany)
    {i : Nat} (hmem : [(r.property, i)] ∈ after.places) {child : Record}
    (hchild : (r.related record)[i]? = some child) {target : EntityMap}
    {given' completed' : Record} {st' : InsertStatement} {before' after' : IssuedInserts}
    (h' : m.RowBetween target given' completed' child st' before' after')
    (hfree : ∀ r' ∈ target.relationsOf .manyToOne, r'.localKey = r.foreignKey →
      child.reference? r'.property = none) :
    target.Receives st' child r.foreignKey record r.localKey := by
  have hkind := kind_of_mem_relationsOf hr
  have relates := fits.related r (List.mem_filter.mp hr).1 child (List.mem_of_getElem? hchild)
  have htarget : m.target r = .ok target := by
    have := h'.map_eq
    rwa [relates.type_eq] at this
  obtain ⟨hcolumn, hgenerates⟩ := relates.foreignKey target htarget
  obtain ⟨start, begun, child₀, heq, hgiven, hkept⟩ := h.items r hr i hmem
  rw [hchild] at heq
  cases heq
  simp only [RelationDef.given, hkind] at hgiven
  obtain ⟨v, hread, hassign⟩ := ok_of_bind hgiven
  have hv := EntityMap.read_eq_ok hread
  obtain ⟨t, w, ht, hconvert, hw⟩ := Record.exists_field?_of_setField hassign
  -- the insertion of the item has left its foreign key alone
  have ht' : child.fieldType? r.foreignKey = some t := by
    rw [hkept.keepsTypes.fieldType?_eq, Record.fieldType?_of_setField hassign, ht]
  have hw' : child.field? r.foreignKey = some w := by
    rw [field?_of_keeps hkept h'.map_eq (hgenerates hkind) hfree, hw]
  obtain ⟨t₀, t₁, hlocal, ht₁, hbase⟩ := relates.types
  rw [ht'] at ht₁
  cases ht₁
  exact ⟨t, v, w, hv, ht', hw',
    FieldType.takes_of_convert hbase.symm (fits.typed _ _ _ hlocal hv) hconvert,
    h'.binds hcolumn (hgenerates hkind) hw'⟩

end RowBetween

/-! ## Records that were stored -/

/-- What is known of a record below the root that is inserted: it was new at the start. -/
theorem exists_of_inserts_concat {forced : Bool} {front : Place} {slot : String} {i : Nat}
    {final : Record} (h : m.inserts (front ++ [(slot, i)]) forced given final = .ok true) :
    ∃ owner map r child target, given.at? front = some owner ∧
      m.entityMap owner.type = .ok map ∧ r ∈ map.relations ∧ r.property = slot ∧
      (r.related owner)[i]? = some child ∧ m.target r = .ok target ∧
      target.hasEmptyKey child = .ok true := by
  induction front generalizing forced given final with
  | nil =>
      obtain ⟨map, r, child, _, _, hmap, hr, hchild, -, ⟨target, htarget, hnew⟩, -⟩ :=
        exists_of_inserts_cons h
      obtain ⟨hrelation, hproperty⟩ := (derived_of_entityMap hmap).relation?_eq_some.mp hr
      exact ⟨given, map, r, child, target, rfl, hmap, hrelation, hproperty, hchild, htarget, hnew⟩
  | cons step front ih =>
      obtain ⟨slot₀, i₀⟩ := step
      obtain ⟨map₀, r₀, child₀, _, given₀, -, hr₀, hchild₀, -, -, htype, hslots, hrest, -⟩ :=
        exists_of_inserts_cons h
      obtain rfl : r₀.property = slot₀ := by simpa using List.find?_some hr₀
      obtain ⟨owner, map, r, child, target, howner, hmap, hr, hproperty, hchild, hnew⟩ := ih hrest
      -- the item was worked on with a key assigned, which leads to the same records
      obtain ⟨owner₀, howner₀, htype₀, hslots₀⟩ := Record.at?_of_slots htype hslots howner
      refine ⟨owner₀, map, r, child, target, ?_, htype₀ ▸ hmap, hr, hproperty, ?_, hnew⟩
      · rw [Record.at?_cons, RelationDef.items_of_related hchild₀]
        exact howner₀
      · rw [← RelationDef.related_congr (Record.slot?_congr hslots₀ r.property)]
        exact hchild

end Model

/-- **A record whose key was there at the start is inserted only as a forced root.** -/
theorem Cascaded.new {m : Model} {forced : Bool} {start final record : Record}
    {issued : IssuedInserts} (h : Cascaded m forced start final issued) (fits : m.Fits start)
    {place : Place} (hplace : place ∈ issued.places) {map : EntityMap}
    (hrecord : start.at? place = some record) (hmap : m.entityMap record.type = .ok map)
    (hstored : map.hasEmptyKey record = .ok false) : place = [] ∧ forced = true := by
  have inserted := h.decided place
  rw [decide_eq_true hplace] at inserted
  rcases List.eq_nil_or_concat' place with rfl | ⟨front, ⟨slot, i⟩, rfl⟩
  · cases hrecord
    rw [Model.inserts_nil hmap] at inserted
    refine ⟨rfl, ((Model.chosen_iff inserted).mp rfl).resolve_right fun stays => ?_⟩
    rcases stays.1 with hkeys | hempty
    · rw [(EntityMap.hasEmptyKey_eq_false.mp hstored).1] at hkeys
      cases hkeys
    · rw [hstored] at hempty
      cases hempty
  · obtain ⟨owner, ownerMap, r, child, target, howner, hownerMap, hr, rfl, hchild, htarget, hnew⟩ :=
      Model.exists_of_inserts_concat inserted
    have relates := (fits front owner ownerMap howner hownerMap).related r hr child
      (List.mem_of_getElem? hchild)
    rw [RelationDef.at?_of_related howner hchild] at hrecord
    cases hrecord
    -- the record is of the type that was asked whether its key is empty
    rw [relates.type_eq] at hmap
    have equal : target = map := Except.ok.inj (htarget.symm.trans hmap)
    rw [equal, hstored] at hnew
    cases hnew

/-! ## Whole runs -/

/-- The row of a record at a place is linked with those below it: it comes after all of its
references, whose keys it is inserted with, and before all of its collections, whose items are
inserted with its key. An item that has a reference for the same key gets that of the reference. -/
structure LinkedRow (m : Model) (map : EntityMap) (record : Record) (place : Place)
    (st : InsertStatement) (before after : IssuedInserts) : Prop where
  describes : m.Describes st record
  reference : ∀ r ∈ map.relationsOf .manyToOne, ∀ child,
    record.reference? r.property = some child →
      (∀ i rest, place ++ (r.property, i) :: rest ∉ after.places) ∧
        map.Receives st record r.localKey child r.foreignKey
  collection : ∀ r ∈ map.relationsOf .oneToMany,
    (∀ i rest, place ++ (r.property, i) :: rest ∉ before.places) ∧
      ∀ i st', (place ++ [(r.property, i)], st') ∈ after → ∃ child target,
        (r.related record)[i]? = some child ∧ m.entityMap child.type = .ok target ∧
          ((∀ r' ∈ target.relationsOf .manyToOne, r'.localKey = r.foreignKey →
              child.reference? r'.property = none) →
            target.Receives st' child r.foreignKey record r.localKey)

/-- The inserts of a graph: each record is inserted once at most, and not at all if its key was
there at the start and it is not a forced root; and every row is linked with those below it. -/
structure InsertsLinked (m : Model) (forced : Bool) (start final : Record)
    (issued : IssuedInserts) : Prop where
  kept : Keeps m (fun _ => False) start final
  nodup : issued.places.Nodup
  new : ∀ place ∈ issued.places, ∃ record map, start.at? place = some record ∧
    m.entityMap record.type = .ok map ∧
    (map.hasEmptyKey record = .ok false → place = [] ∧ forced = true)
  row : ∀ before place st after, issued = before ++ (place, st) :: after →
    ∃ record map, final.at? place = some record ∧ m.entityMap record.type = .ok map ∧
      LinkedRow m map record place st before after

theorem Cascaded.linkedRow {m : Model} {forced : Bool} {start final : Record}
    {before after : IssuedInserts} {place : Place} {st : InsertStatement}
    (h : Cascaded m forced start final (before ++ (place, st) :: after)) (fits : m.Fits start) :
    ∃ record map, final.at? place = some record ∧ m.entityMap record.type = .ok map ∧
      LinkedRow m map record place st before after := by
  have fits := fits.of_keeps h.kept
  obtain ⟨record, hrecord, hrow⟩ := h.rows (place, st) (by simp)
  rw [below_append, below_cons_self] at hrow
  obtain ⟨map, given, completed, hbetween⟩ := hrow.between
  have fitsRecord := fits place record map hrecord hbetween.map_eq
  refine ⟨record, map, hrecord, hbetween.map_eq, {
    describes := hbetween.describes
    reference := fun r hr child hchild => ⟨fun i rest hmem =>
      hbetween.reference_notMem_after hr i rest (mem_places_below.mpr hmem), ?_⟩
    collection := fun r hr => ⟨fun i rest hmem =>
      hbetween.item_notMem_before hr i rest (mem_places_below.mpr hmem), fun i st' hst' => ?_⟩ }⟩
  · refine hbetween.receives_reference fitsRecord hr hchild fun target htarget => ?_
    have first : (r.related record)[0]? = some child := by
      rw [(RelationDef.related_of_reference (kind_of_mem_relationsOf hr) hchild).1]
      rfl
    exact (fits _ child target (RelationDef.at?_of_related hrecord first) htarget).typed
  · have hmem : [(r.property, i)] ∈ (after.below place).places :=
      mem_places_below.mpr (mem_places_of_mem hst')
    obtain ⟨_, _, child, hchild, -, -⟩ := hbetween.items r hr i hmem
    obtain ⟨child', hchild', target, _, _, _, _, -, hbetween'⟩ := h.rows _
      (List.mem_append_right before (List.mem_cons_of_mem (place, st) hst'))
    rw [RelationDef.at?_of_related hrecord hchild] at hchild'
    cases hchild'
    exact ⟨child, target, hchild, hbetween'.map_eq,
      hbetween.receives_item fitsRecord hr hmem hchild hbetween'⟩

theorem Cascaded.insertsLinked {m : Model} {forced : Bool} {start final : Record}
    {issued : IssuedInserts} (h : Cascaded m forced start final issued) (fits : m.Fits start) :
    InsertsLinked m forced start final issued where
  kept := h.kept
  nodup := h.nodup
  new place hplace := by
    obtain ⟨p, hp, rfl⟩ := List.mem_map.mp hplace
    obtain ⟨record', hrecord', map, _, _, _, _, -, hbetween⟩ := h.rows p hp
    obtain ⟨record, hrecord, hkept⟩ := h.kept.exists_at? hrecord'
    have hmap := hbetween.map_eq
    rw [hkept.type_eq] at hmap
    exact ⟨record, map, hrecord, hmap, h.new fits hplace hrecord hmap⟩
  row before place st after hissued := by
    subst hissued
    exact h.linkedRow fits

namespace Store

variable {σ : Type} {store : Store σ} {forced : Bool}

/-- **The rows of a graph are inserted once each, in order and with the keys they need.** An
insertion that ends well of a graph that fits the model has issued linked inserts and run no other
query, and each insert binds the values of its row. -/
theorem linked_of_insertRecord {s s' : Session σ Record} (fits : store.model.Fits s.subject)
    (h : store.insertRecord forced s = .ok () s') :
    ∃ issued : IssuedInserts, RanQueries s.calls s'.calls (issued.queries store) ∧
      InsertsLinked store.model forced s.subject s'.subject issued ∧
      ∀ p ∈ issued, (store.connection.dialect.render (.insert p.2)).params =
        p.2.values.map (·.param) := by
  unfold insertRecord at h
  obtain ⟨record, s₁, hrecord, h₁⟩ := ends_of_bind h
  obtain ⟨rfl, rfl⟩ := Work.ok_of_subject hrecord
  obtain ⟨issued, cascaded, ran⟩ := inserting_insertLevels store _ forced _ _ h₁
  exact ⟨issued, ran, cascaded.insertsLinked fits, fun p _ => params_render_insert _ p.2⟩

end Store

/-! ## A book, its author and another book of the author -/

namespace Sample

theorem typed_newBook : newBook.Typed := Record.typed_of_fields (by decide)

theorem typed_newAuthor : newAuthor.Typed := Record.typed_of_fields (by decide)

/-- A book fits with or without an author. -/
theorem fits_book (authors : List Record) (hauthors : ∀ a ∈ authors, (model none none).Fits a ∧
      a.type = "sql::Author" ∧ a.fieldType? "id" = some (.optional .int32)) :
    (model none none).Fits (newBook.withItems "author" authors) := by
  refine .of_items (fun map hmap => ?_) fun s hs child hchild => ?_
  · cases (show (model none none).entityMap newBook.type = .ok _ from rfl).symm.trans hmap
    exact {
      typed := typed_newBook
      localKeys_nodup := by decide
      localKeys_given := by decide
      related := fun r hr child hchild => by
        cases List.mem_singleton.mp hr
        obtain ⟨-, htype, hid⟩ :=
          hauthors child (List.mem_of_mem_head? (Option.mem_toList.mp hchild))
        exact {
          type_eq := htype
          foreignKey := fun target htarget => by
            cases htarget
            decide
          types := ⟨_, _, rfl, hid, rfl⟩ } }
  · cases List.mem_singleton.mp hs
    exact (hauthors child hchild).1

theorem fits_newAuthor : (model none none).Fits newAuthor := by
  refine .of_items (fun map hmap => ?_) fun s hs child hchild => ?_
  · cases (show (model none none).entityMap newAuthor.type = .ok _ from rfl).symm.trans hmap
    exact {
      typed := typed_newAuthor
      localKeys_nodup := by decide
      localKeys_given := by decide
      related := fun r hr child hchild => by
        cases List.mem_singleton.mp hr
        cases List.mem_singleton.mp hchild
        exact {
          type_eq := rfl
          foreignKey := fun target htarget => by
            cases htarget
            decide
          types := ⟨_, _, rfl, rfl, rfl⟩ } }
  · cases List.mem_singleton.mp hs
    cases List.mem_singleton.mp hchild
    exact fits_book [] fun a ha => absurd ha List.not_mem_nil

theorem fits_authoredBook : (model none none).Fits authoredBook :=
  fits_book [newAuthor] fun a ha => by
    cases List.mem_singleton.mp ha
    exact ⟨fits_newAuthor, rfl, rfl⟩

end Sample

/-- A book, its new author and another book of that author are inserted, the author first: the
books with the key that the author got. -/
theorem Store.linked_of_insertRecord_authoredBook :
    let s := Sample.session Sample.authoredBook []
    Sample.store.model.Fits s.subject ∧ ∃ s', Sample.store.insertRecord true s = .ok () s' ∧
      ∃ issued : IssuedInserts, RanQueries s.calls s'.calls (issued.queries Sample.store) ∧
        InsertsLinked Sample.store.model true s.subject s'.subject issued ∧
        (issued.queries Sample.store).map (fun q =>
          (q.params.find? (·.name == "author_id_2")).map (·.value)) =
          [none, none, some (.int32 (some 102)), some (.int32 (some 102))] := by
  have ended := ok_of_endedWell
    (Sample.store.insertRecord true (Sample.session Sample.authoredBook [])) (by decide +kernel)
  obtain ⟨issued, ran, linked, -⟩ := linked_of_insertRecord Sample.fits_authoredBook ended
  refine ⟨Sample.fits_authoredBook, _, ended, issued, ran, linked, ?_⟩
  obtain ⟨calls, hcalls, hqueries⟩ := ran
  obtain rfl : _ = calls := hcalls
  -- what the queries bind is read off the calls of the run
  have bound := congrArg (List.map (Option.map fun q : Query =>
    (q.params.find? (·.name == "author_id_2")).map (·.value))) hqueries
  rw [List.map_map, List.map_map] at bound
  apply List.map_injective_iff.mpr fun _ _ => Option.some.inj
  rw [List.map_map]
  refine Eq.trans bound.symm ?_
  decide +kernel

end GraphStore
