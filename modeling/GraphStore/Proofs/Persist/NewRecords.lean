import GraphStore.Proofs.Persist.Insertion
import GraphStore.Proofs.Persist.Keeping
import GraphStore.Sample.Graphs

/-!
# New records of a graph

A new record of a graph is not inserted for certain, even when its owner is: the keys that are
copied into it may be all that it lacked, and then it counts as stored. `Model.StaysNew` says when
this does not happen, and `ok_of_insertRecord` that exactly the new records that stay new are
inserted, once each.
-/

set_option autoImplicit false

namespace GraphStore

/-! ## Staying new -/

/-- Nothing says that the record is stored: its type has no keys, or one of them is empty. -/
def EntityMap.CountsAsNew (map : EntityMap) (record : Record) : Prop :=
  map.keys.isEmpty = true ∨ map.hasEmptyKey record = .ok true

namespace Model

/-- The record counts as new when its insertion begins, and still does with the keys of its
references, which are those of `final`. -/
def StaysNew (m : Model) (map : EntityMap) (given final : Record) : Prop :=
  map.CountsAsNew given ∧
    ∃ completed, m.withReferenceKeys final (map.relationsOf .manyToOne) given = .ok completed ∧
      map.CountsAsNew completed

/-- An item of a relation is new, and stays so with the key of its owner if it is given that. -/
def ItemStaysNew (m : Model) (map : EntityMap) (r : RelationDef) (owner child final : Record) :
    Prop :=
  ∃ target given, m.target r = .ok target ∧ target.hasEmptyKey child = .ok true ∧
    r.given map owner child = .ok given ∧ m.StaysNew target given final

/-- One of the keys of an item is empty, and nothing is copied into it: it is neither the foreign
key of a collection that has the item nor the local key of a reference that the item has. -/
def LacksOwnKey (m : Model) (r : RelationDef) (child : Record) : Prop :=
  ∃ target c v, m.target r = .ok target ∧ c ∈ target.keyColumns ∧
    child.field? c.property = some v ∧ v.isEmptyKey = true ∧
    (r.kind = .oneToMany → c.property ≠ r.foreignKey) ∧
    ∀ r' ∈ target.relationsOf .manyToOne, r'.localKey = c.property →
      child.reference? r'.property = none

variable {m : Model} {map target : EntityMap} {forced b : Bool} {given given' final : Record}
  {r : RelationDef} {owner child child' : Record}

theorem entered_iff (h : entered map forced given = .ok b) :
    b = true ↔ forced = true ∨ map.CountsAsNew given := by
  unfold entered at h
  unfold EntityMap.CountsAsNew
  cases forced <;> cases hkeys : map.keys.isEmpty <;> simp_all

theorem chosen_iff (h : m.chosen map forced given final = .ok b) :
    b = true ↔ forced = true ∨ m.StaysNew map given final := by
  unfold chosen at h
  obtain ⟨begun, hbegun, h₁⟩ := ok_of_bind h
  cases begun with
  | false =>
      cases h₁
      -- the insertion does not begin: neither side can hold
      have stored := mt (entered_iff hbegun).mpr Bool.false_ne_true
      rw [not_or] at stored
      constructor
      · intro impossible
        cases impossible
      · rintro (hforced | hnew)
        · exact absurd hforced stored.1
        · exact absurd hnew.1 stored.2
  | true =>
      simp only [Bool.not_true, Bool.false_eq_true, if_false] at h₁
      obtain ⟨completed, hcompleted, h₂⟩ := ok_of_bind h₁
      -- it begins, and is decided again once the keys of the references are known
      rw [entered_iff h₂]
      constructor
      · rintro (hforced | hnew)
        · exact .inl hforced
        · exact ((entered_iff hbegun).mp rfl).imp_right fun hbegun =>
            ⟨hbegun, completed, hcompleted, hnew⟩
      · rintro (hforced | ⟨-, completed', hcompleted', hnew⟩)
        · exact .inl hforced
        · rw [hcompleted] at hcompleted'
          cases hcompleted'
          exact .inr hnew

/-! ## Keys that nothing is copied into -/

theorem entered_of_empty {c : ColumnDef} {v : Value} (hc : c ∈ map.keyColumns)
    (hvalue : given.field? c.property = some v) (hempty : v.isEmptyKey = true)
    (h : entered map forced given = .ok b) : b = true := by
  unfold entered at h
  by_cases hall : (forced || map.keys.isEmpty) = true
  · rw [if_pos hall] at h
    cases h
    rfl
  · rw [if_neg hall] at h
    exact EntityMap.hasEmptyKey_of_mem hc (EntityMap.read_of_field? hvalue) hempty h

/-- Copying the keys of references changes local keys only. -/
theorem field?_of_withReferenceKeys {rs : List RelationDef} {record completed : Record}
    {property : String}
    (hfree : ∀ r ∈ rs, r.localKey = property → final.reference? r.property = none)
    (h : m.withReferenceKeys final rs record = .ok completed) :
    completed.field? property = record.field? property := by
  induction rs generalizing record with
  | nil =>
      cases h
      rfl
  | cons r rs ih =>
      have ih := fun record => @ih record fun r' hr' => hfree r' (List.mem_cons_of_mem r hr')
      rw [withReferenceKeys] at h
      cases hchild : final.reference? r.property with
      | none =>
          simp only [hchild] at h
          exact ih record h
      | some child =>
          simp only [hchild] at h
          obtain ⟨target, -, h₁⟩ := ok_of_bind h
          obtain ⟨key, -, h₂⟩ := ok_of_bind h₁
          obtain ⟨assigned, hassign, h₃⟩ := ok_of_bind h₂
          have apart : property ≠ r.localKey := by
            intro equal
            rw [hfree r (by simp) equal.symm] at hchild
            cases hchild
          rw [ih assigned h₃, Record.field?_of_setField hassign apart]

/-- A record with an empty key that nothing is copied into is inserted. -/
theorem chosen_of_empty {c : ColumnDef} {v : Value} (hc : c ∈ map.keyColumns)
    (hvalue : given.field? c.property = some v) (hempty : v.isEmptyKey = true)
    (hfree : ∀ r ∈ map.relationsOf .manyToOne, r.localKey = c.property →
      final.reference? r.property = none)
    (h : m.chosen map forced given final = .ok b) : b = true := by
  unfold chosen at h
  obtain ⟨begun, hbegun, h₁⟩ := ok_of_bind h
  -- the key is empty when the insertion begins, and still after the copies
  obtain rfl := entered_of_empty hc hvalue hempty hbegun
  simp only [Bool.not_true, Bool.false_eq_true, if_false] at h₁
  obtain ⟨completed, hcompleted, h₂⟩ := ok_of_bind h₁
  refine entered_of_empty hc ?_ hempty h₂
  rw [field?_of_withReferenceKeys hfree hcompleted, hvalue]

/-! ## Places below an inserted record -/

theorem type_of_given (h : r.given map owner child = .ok given) :
    given.type = child.type ∧ given.slots = child.slots := by
  unfold RelationDef.given at h
  cases hkind : r.kind with
  | manyToOne =>
      simp only [hkind] at h
      cases h
      exact ⟨rfl, rfl⟩
  | oneToMany =>
      simp only [hkind] at h
      obtain ⟨key, -, h₁⟩ := ok_of_bind h
      exact ⟨Record.type_of_setField h₁, Record.slots_of_setField h₁⟩

/-- What is known when an item is decided about and the answer is yes. -/
theorem decidedItem_eq_true {decision : Record → Record → Except Error Bool}
    {item item' : Option Record}
    (h : m.decidedItem decision map r owner item item' = .ok true) :
    ∃ child child' target given, item = some child ∧ item' = some child' ∧
      m.target r = .ok target ∧ target.hasEmptyKey child = .ok true ∧
      r.given map owner child = .ok given ∧ decision given child' = .ok true := by
  cases item with
  | none => cases h
  | some child =>
      cases item' with
      | none => cases h
      | some child' =>
          unfold decidedItem at h
          obtain ⟨target, htarget, h₁⟩ := ok_of_bind h
          obtain ⟨new, hnew, h₂⟩ := ok_of_bind h₁
          cases new with
          | false => cases h₂
          | true =>
              simp only [Bool.not_true, Bool.false_eq_true, if_false] at h₂
              obtain ⟨given, hgiven, h₃⟩ := ok_of_bind h₂
              exact ⟨child, child', target, given, rfl, rfl, htarget, hnew, hgiven, h₃⟩

/-- What is known of a relation that leads to an inserted record. Everything below the item is
decided about like below a record of its own. -/
theorem exists_of_inserts_cons {slot : String} {i : Nat} {rest : Place}
    (h : m.inserts ((slot, i) :: rest) forced given final = .ok true) :
    ∃ map r child child' given', m.entityMap given.type = .ok map ∧
      map.relation? slot = some r ∧ (r.related given)[i]? = some child ∧
      (r.related final)[i]? = some child' ∧
      (∃ target, m.target r = .ok target ∧ target.hasEmptyKey child = .ok true) ∧
      given'.type = child.type ∧ given'.slots = child.slots ∧
      m.inserts rest false given' child' = .ok true ∧
      ∀ rest', m.inserts ((slot, i) :: rest') forced given final =
        m.inserts rest' false given' child' := by
  have h₀ := h
  unfold inserts at h₀
  obtain ⟨map, hmap, h₁⟩ := ok_of_bind h₀
  cases hr : map.relation? slot with
  | none =>
      simp only [hr] at h₁
      cases h₁
  | some r =>
      simp only [hr] at h₁
      obtain ⟨looked, hreached, h₂⟩ := ok_of_bind h₁
      cases looked with
      | false => cases h₂
      | true =>
          simp only [Bool.not_true, Bool.false_eq_true, if_false] at h₂
          obtain ⟨child, child', target, given', hchild, hchild', htarget, hnew, hgiven, hrest⟩ :=
            decidedItem_eq_true h₂
          refine ⟨map, r, child, child', given', hmap, hr, hchild, hchild',
            ⟨target, htarget, hnew⟩, (type_of_given hgiven).1, (type_of_given hgiven).2, hrest,
            fun rest' => ?_⟩
          rw [inserts_cons_of_reached hmap hr hreached, decidedBelow, hchild, hchild',
            decidedItem_new htarget hnew hgiven]

/-- The relations of a record that is inserted are all looked at. -/
theorem inserts_related (hmap : m.entityMap given.type = .ok map) (hderived : map.Derived)
    (h : m.chosen map forced given final = .ok true) (hr : r ∈ map.relations) (i : Nat) :
    m.inserts [(r.property, i)] forced given final =
      m.decidedBelow (m.inserts [] false) map r final i given final := by
  refine inserts_cons_of_reached hmap (hderived.relation?_of_mem hr) ?_
  unfold reached
  cases r.kind with
  | oneToMany => exact h
  | manyToOne =>
      unfold chosen at h
      obtain ⟨begun, hbegun, h₁⟩ := ok_of_bind h
      cases begun with
      | false => cases h₁
      | true => exact hbegun

/-- What is decided about the records related to an inserted record, wherever that is. -/
theorem inserts_concat {place : Place} (h : m.inserts place forced given final = .ok true) :
    ∃ owner owner' map, given.at? place = some owner ∧ final.at? place = some owner' ∧
      m.entityMap owner.type = .ok map ∧ ∀ r ∈ map.relations, ∀ i,
        m.inserts (place ++ [(r.property, i)]) forced given final =
          m.decidedBelow (m.inserts [] false) map r owner' i owner owner' := by
  induction place generalizing forced given final with
  | nil =>
      have h₀ := h
      unfold inserts at h₀
      obtain ⟨map, hmap, h₁⟩ := ok_of_bind h₀
      exact ⟨given, final, map, rfl, rfl, hmap, fun r hr i =>
        inserts_related hmap (derived_of_entityMap hmap) h₁ hr i⟩
  | cons step rest ih =>
      obtain ⟨slot, i⟩ := step
      obtain ⟨map₀, r₀, child, child', given', -, hr₀, hchild, hchild', -, htype, hslots, hrest,
        below⟩ := exists_of_inserts_cons h
      obtain rfl : r₀.property = slot := by simpa using List.find?_some hr₀
      obtain ⟨owner, owner', map, howner, howner', hmap, decided⟩ := ih hrest
      -- the item was worked on with a key assigned, which leads to the same records
      obtain ⟨owner₀, howner₀, htype₀, hslots₀⟩ := Record.at?_of_slots htype hslots howner
      refine ⟨owner₀, owner', map, ?_, ?_, htype₀ ▸ hmap, fun r hr j => ?_⟩
      · rw [Record.at?_cons, RelationDef.items_of_related hchild]
        exact howner₀
      · rw [Record.at?_cons, RelationDef.items_of_related hchild']
        exact howner'
      · rw [List.cons_append, below, decided r hr j, decidedBelow, decidedBelow,
          RelationDef.related_congr (Record.slot?_congr hslots₀ r.property)]

/-- An item of the type that its relation leads to is inserted if and only if it is new and stays
so. -/
theorem itemStaysNew_iff {i : Nat} (hchild : (r.related given)[i]? = some child)
    (hchild' : (r.related final)[i]? = some child') (htype : child.type = r.target)
    (h : m.decidedBelow (m.inserts [] false) map r owner i given final = .ok b) :
    b = true ↔ m.ItemStaysNew map r owner child child' := by
  rw [decidedBelow, hchild, hchild'] at h
  unfold decidedItem at h
  obtain ⟨target, htarget, h₁⟩ := ok_of_bind h
  obtain ⟨new, hnew, h₂⟩ := ok_of_bind h₁
  unfold ItemStaysNew
  cases new with
  | false =>
      cases h₂
      constructor
      · intro impossible
        cases impossible
      · rintro ⟨target', _, htarget', hnew', -⟩
        rw [htarget] at htarget'
        cases htarget'
        rw [hnew] at hnew'
        cases hnew'
  | true =>
      simp only [Bool.not_true, Bool.false_eq_true, if_false] at h₂
      obtain ⟨given', hgiven, h₃⟩ := ok_of_bind h₂
      have hmap : m.entityMap given'.type = .ok target := by
        rw [(type_of_given hgiven).1, htype]
        exact htarget
      rw [inserts_nil hmap] at h₃
      rw [chosen_iff h₃]
      constructor
      · rintro (impossible | stays)
        · cases impossible
        · exact ⟨target, given', htarget, hnew, hgiven, stays⟩
      · rintro ⟨target', given'', htarget', -, hgiven', stays⟩
        rw [htarget] at htarget'
        cases htarget'
        rw [hgiven] at hgiven'
        cases hgiven'
        exact .inr stays

theorem eq_true_of_lacksOwnKey {i : Nat} (hchild : (r.related given)[i]? = some child)
    (hchild' : (r.related final)[i]? = some child') (htype : child.type = r.target)
    (hshape : Record.SameShape child child') (hlacks : m.LacksOwnKey r child)
    (h : m.decidedBelow (m.inserts [] false) map r owner i given final = .ok b) : b = true := by
  obtain ⟨target, c, v, htarget, hc, hvalue, hempty, hforeign, hfree⟩ := hlacks
  rw [decidedBelow, hchild, hchild'] at h
  simp only [decidedItem, htarget, ok_bind] at h
  obtain ⟨new, hnew, h₁⟩ := ok_of_bind h
  obtain rfl := EntityMap.hasEmptyKey_of_mem hc (EntityMap.read_of_field? hvalue) hempty hnew
  simp only [Bool.not_true, Bool.false_eq_true, if_false] at h₁
  obtain ⟨given', hgiven, h₂⟩ := ok_of_bind h₁
  rw [inserts_nil (by rw [(type_of_given hgiven).1, htype]; exact htarget)] at h₂
  -- the key of the owner goes into another field
  have hvalue' : given'.field? c.property = some v := by
    unfold RelationDef.given at hgiven
    cases hkind : r.kind with
    | manyToOne =>
        simp only [hkind] at hgiven
        cases hgiven
        exact hvalue
    | oneToMany =>
        simp only [hkind] at hgiven
        obtain ⟨key, -, hassign⟩ := ok_of_bind hgiven
        rw [Record.field?_of_setField hassign (hforeign hkind), hvalue]
  refine chosen_of_empty hc hvalue' hempty (fun r' hr' equal => ?_) h₂
  exact (hshape.reference?_eq_none r'.property).mpr (hfree r' hr' equal)

end Model

/-- The inserts are those of the records that are new and stay so, each record's once. -/
structure InsertsNew (m : Model) (forced : Bool) (start final : Record) (issued : IssuedInserts) :
    Prop where
  nodup : issued.places.Nodup
  describe : issued.Describe m final
  root : ∃ map, m.entityMap start.type = .ok map ∧
    ([] ∈ issued.places ↔ forced = true ∨ m.StaysNew map start final)
  /-- A record related to an inserted record is inserted if and only if it is new and stays so, as
  it does when it has an empty key that nothing is copied into. -/
  related : ∀ place ∈ issued.places, ∃ owner owner' map, start.at? place = some owner ∧
    final.at? place = some owner' ∧ m.entityMap owner.type = .ok map ∧
    ∀ r ∈ map.relations, ∀ i child, (r.related owner)[i]? = some child → child.type = r.target →
      ∃ child', (r.related owner')[i]? = some child' ∧
        (place ++ [(r.property, i)] ∈ issued.places ↔ m.ItemStaysNew map r owner' child child') ∧
        (m.LacksOwnKey r child → place ++ [(r.property, i)] ∈ issued.places)

theorem Cascaded.insertsNew {m : Model} {forced : Bool} {start final : Record}
    {issued : IssuedInserts} (h : Cascaded m forced start final issued) :
    InsertsNew m forced start final issued where
  nodup := h.nodup
  describe := h.rows.describe
  root := by
    have decided := h.decided []
    unfold Model.inserts at decided
    obtain ⟨map, hmap, chosen⟩ := ok_of_bind decided
    exact ⟨map, hmap, decide_eq_true_iff.symm.trans (Model.chosen_iff chosen)⟩
  related place hplace := by
    have inserted := h.decided place
    rw [decide_eq_true hplace] at inserted
    obtain ⟨owner, owner', map, howner, howner', hmap, decided⟩ := Model.inserts_concat inserted
    refine ⟨owner, owner', map, howner, howner', hmap, fun r hr i child hchild htype => ?_⟩
    -- the run keeps the graph, so the item is still there at the end
    obtain ⟨owner'', howner'', hkept⟩ := h.kept.at? howner
    rw [howner'] at howner''
    cases howner''
    have inside : i < (r.related owner').length := by
      rw [hkept.sameShape.length_related]
      exact (List.getElem?_eq_some_iff.mp hchild).1
    obtain ⟨child', hchild'⟩ : ∃ child', (r.related owner')[i]? = some child' :=
      ⟨_, List.getElem?_eq_getElem inside⟩
    have below := h.decided (place ++ [(r.property, i)])
    rw [decided r hr i] at below
    have hshape : Record.SameShape child child' := (hkept.item
      (RelationDef.items_of_related hchild) (RelationDef.items_of_related hchild')).sameShape
    exact ⟨child', hchild',
      decide_eq_true_iff.symm.trans (Model.itemStaysNew_iff hchild hchild' htype below),
      fun hlacks => of_decide_eq_true
        (Model.eq_true_of_lacksOwnKey hchild hchild' htype hshape hlacks below)⟩

namespace Store

variable {σ : Type} {store : Store σ} {forced : Bool}

theorem insertsNew_of_insertLevels {levels : Nat} {s s' : Session σ Record}
    (h : store.insertLevels levels forced s = .ok () s') :
    ∃ issued : IssuedInserts, RanQueries s.calls s'.calls (issued.queries store) ∧
      InsertsNew store.model forced s.subject s'.subject issued := by
  obtain ⟨issued, cascaded, ran⟩ := inserting_insertLevels store levels forced s s' h
  exact ⟨issued, ran, cascaded.insertsNew⟩

/-- **Exactly the new records that stay new are inserted.** An insertion that ends well has issued
one insert for each of them, and run no other query. -/
theorem ok_of_insertRecord {s s' : Session σ Record}
    (h : store.insertRecord forced s = .ok () s') :
    ∃ issued : IssuedInserts, RanQueries s.calls s'.calls (issued.queries store) ∧
      InsertsNew store.model forced s.subject s'.subject issued := by
  unfold insertRecord at h
  obtain ⟨record, s₁, hrecord, h₁⟩ := ends_of_bind h
  obtain ⟨rfl, rfl⟩ := Work.ok_of_subject hrecord
  exact insertsNew_of_insertLevels h₁

/-- An author and a new book of that author are both inserted. -/
theorem ok_of_insertRecord_newAuthor :
    let s := Sample.session Sample.newAuthor []
    ∃ s', Sample.store.insertRecord true s = .ok () s' ∧ ∃ issued : IssuedInserts,
      RanQueries s.calls s'.calls (issued.queries Sample.store) ∧
      InsertsNew Sample.store.model true s.subject s'.subject issued ∧ [] ∈ issued.places ∧
      [("books", 0)] ∈ issued.places := by
  have ended := ok_of_endedWell
    (Sample.store.insertRecord true (Sample.session Sample.newAuthor [])) (by decide +kernel)
  obtain ⟨issued, ran, inserts⟩ := ok_of_insertRecord ended
  obtain ⟨_, _, root⟩ := inserts.root
  have hroot := root.mpr (.inl rfl)
  obtain ⟨owner, _, map, howner, -, hmap, related⟩ := inserts.related [] hroot
  cases howner
  obtain ⟨map₀, r, hmap₀, hr, hproperty, hbook, htype, hlacks⟩ : ∃ map₀ r,
      Sample.store.model.entityMap Sample.newAuthor.type = .ok map₀ ∧ r ∈ map₀.relations ∧
      r.property = "books" ∧ (r.related Sample.newAuthor)[0]? = some Sample.newBook ∧
      Sample.newBook.type = r.target ∧ Sample.store.model.LacksOwnKey r Sample.newBook :=
    ⟨_, _, rfl, .head _, rfl, rfl, rfl, _, _, _, rfl, .head _, rfl, rfl, by decide, by decide⟩
  rw [show (Sample.session Sample.newAuthor []).subject = Sample.newAuthor from rfl, hmap₀] at hmap
  cases hmap
  obtain ⟨_, -, -, inserted⟩ := related r hr 0 Sample.newBook hbook htype
  refine ⟨_, ended, issued, ran, inserts, hroot, ?_⟩
  rw [← hproperty]
  exact inserted hlacks

/-- A tag whose key is that of its course and a label counts as stored once it is given the key of
the course: it is lost, and the insertion of the course ends well. -/
theorem insertRecord_newCourse :
    let s := Sample.session Sample.newCourse []
    let m := Sample.store.model
    (∃ map target r, m.entityMap s.subject.type = .ok map ∧ r ∈ map.relations ∧
      r.related s.subject = [Sample.newTag] ∧ m.target r = .ok target ∧
      target.hasEmptyKey Sample.newTag = .ok true) ∧
    ∃ s', Sample.store.insertRecord true s = .ok () s' ∧ RanQueries s.calls s'.calls
      [⟨"INSERT INTO \"courses\" (\"code\", \"title\") VALUES (:code_0, :title_1);",
        [⟨"code_0", .varchar (some "OPT")⟩, ⟨"title_1", .varchar (some "")⟩]⟩] := by
  have ended := ok_of_endedWell
    (Sample.store.insertRecord true (Sample.session Sample.newCourse [])) (by decide +kernel)
  refine ⟨⟨_, _, _, rfl, .head _, rfl, rfl, rfl⟩, _, ended, .of_map ?_⟩
  decide +kernel

end Store

end GraphStore
