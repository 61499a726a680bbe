import GraphStore.Persist.Graphs
import GraphStore.Proofs.Outcome
import GraphStore.Proofs.Record.Places
import Mathlib.Data.List.Nodup

/-!
# Gathering graphs from rows

Rows are put together one after the other, and in each of them the segments attach what they show,
one after the other. Two invariants say what comes of it. `Filled` is about one root: its slots hold
the first record of each identity that its rows show. `GathersFrom` is about all of them: there is
one root for each identity, with the fields that its first row shows. A segment keeps the first
(`Filled.attachSegment`), and so do all segments of a row and any number of rows
(`GathersFrom.gatherRows`).
-/

set_option autoImplicit false

namespace GraphStore

/-! ## First occurrences -/

/-- The first item of each identity. -/
def firsts (xs : List (Record × String)) : List (Record × String) :=
  xs.foldl (fun kept x => if x.2 ∈ kept.map (·.2) then kept else kept ++ [x]) []

theorem firsts_concat (xs : List (Record × String)) (x : Record × String) :
    firsts (xs ++ [x]) =
      if x.2 ∈ (firsts xs).map (·.2) then firsts xs else firsts xs ++ [x] := by
  rw [firsts, List.foldl_append]
  rfl

theorem mem_keys_firsts (xs : List (Record × String)) (key : String) :
    key ∈ (firsts xs).map (·.2) ↔ key ∈ xs.map (·.2) := by
  induction xs using List.reverseRecOn with
  | nil => rfl
  | append_singleton xs x ih =>
      rw [firsts_concat]
      by_cases hx : x.2 ∈ (firsts xs).map (·.2)
      · rw [if_pos hx, ih, List.map_append, List.mem_append]
        refine ⟨.inl, ?_⟩
        rintro (h | h)
        · exact h
        · rw [List.map_singleton, List.mem_singleton] at h
          exact ih.mp (h ▸ hx)
      · rw [if_neg hx, List.map_append, List.map_append, List.mem_append, List.mem_append, ih]

theorem nodup_firsts (xs : List (Record × String)) : ((firsts xs).map (·.2)).Nodup := by
  induction xs using List.reverseRecOn with
  | nil => exact List.nodup_nil
  | append_singleton xs x ih =>
      rw [firsts_concat]
      by_cases hx : x.2 ∈ (firsts xs).map (·.2)
      · rw [if_pos hx]
        exact ih
      · rw [if_neg hx, List.map_append, List.map_singleton]
        exact List.Nodup.append ih (List.nodup_singleton _)
          (List.disjoint_singleton.mpr hx)

theorem mem_of_mem_firsts {xs : List (Record × String)} {x : Record × String}
    (h : x ∈ firsts xs) : x ∈ xs := by
  induction xs using List.reverseRecOn with
  | nil => exact h
  | append_singleton xs y ih =>
      rw [firsts_concat] at h
      split at h
      · exact List.mem_append_left _ (ih h)
      · rcases List.mem_append.mp h with h | h
        · exact List.mem_append_left _ (ih h)
        · exact List.mem_append_right _ h

theorem firsts_eq_nil_iff (xs : List (Record × String)) : firsts xs = [] ↔ xs = [] := by
  have keys : (firsts xs).map (·.2) = [] ↔ xs.map (·.2) = [] := by
    rw [List.eq_nil_iff_forall_not_mem, List.eq_nil_iff_forall_not_mem]
    exact forall_congr' fun key => not_congr (mem_keys_firsts xs key)
  rwa [List.map_eq_nil_iff, List.map_eq_nil_iff] at keys

/-! ## What rows show -/

/-- The row of this number shows a record of the entity, of this identity. -/
def Segment.ShowsRecord (root : Segment) (x : Row × Nat) (record : Record) (key : String) : Prop :=
  root.readRow x.1 = .ok (some record) ∧ root.map.identity record x.2 = .ok key

/-- What a segment shows in the row of this number: a record with its identity, or nothing. -/
def Segment.ShowsChild (x : Row × Nat) (seg : Segment) : Option (Record × String) → Prop
  | none => seg.readRow x.1 = .ok none
  | some (child, key) => seg.ShowsRecord x child key

/-- What a row shows: the root with its identity, and for every relation the related record with
its identity, if there is one. -/
structure Shown where
  root : Record
  key : String
  children : List (Option (Record × String))

/-- The row shows the record `child`, of identity `key`, for relation number `i`. -/
def Shown.Child (w : Shown) (i : Nat) (child : Record) (key : String) : Prop :=
  w.children[i]? = some (some (child, key))

/-- What a row shows in the segments of a select. -/
structure Shows (root : Segment) (related : List Segment) (x : Row × Nat) (w : Shown) : Prop where
  root : root.ShowsRecord x w.root w.key
  children : List.Forall₂ (Segment.ShowsChild x) related w.children

/-- The rows from number `n` on that show a root. -/
def Segment.presentRows (root : Segment) (n : Nat) (rows : List Row) : List (Row × Nat) :=
  (rows.zipIdx n).filter fun x => root.isPresent x.1

/-- The roots that rows show, with their identities. -/
def rootsOf (ws : List Shown) : List (Record × String) := ws.map fun w => (w.root, w.key)

/-- The records that rows of the root `key` show for relation number `i`. -/
def childrenOf (ws : List Shown) (key : String) (i : Nat) : List (Record × String) :=
  (ws.filter (·.key == key)).filterMap fun w => w.children[i]?.join

section

variable {root seg : Segment} {related : List Segment} {x : Row × Nat} {w : Shown}
  {ws : List Shown} {row : Row} {rows : List Row} {n i : Nat}

/-- A segment shows no record in the rows without its key, and in these only. -/
theorem Segment.readRow_eq_none : seg.readRow row = .ok none ↔ seg.isPresent row = false := by
  unfold readRow
  split
  next present =>
    rw [present]
    constructor
    · intro skipped
      obtain ⟨_, -, hsome⟩ := ok_of_map skipped
      cases hsome
    · intro absent
      cases absent
  next absent => exact ⟨fun _ => by simpa using absent, fun _ => rfl⟩

theorem Segment.isPresent_of_readRow {r : Record} (h : seg.readRow row = .ok (some r)) :
    seg.isPresent row = true := by
  by_contra absent
  rw [readRow_eq_none.mpr (by simpa using absent)] at h
  cases h

theorem Segment.presentRows_cons_of_present (h : root.isPresent row = true) :
    root.presentRows n (row :: rows) = (row, n) :: root.presentRows (n + 1) rows := by
  rw [presentRows, List.zipIdx_cons, List.filter_cons, if_pos h]
  rfl

theorem Segment.presentRows_cons_of_absent (h : root.isPresent row = false) :
    root.presentRows n (row :: rows) = root.presentRows (n + 1) rows := by
  rw [presentRows, List.zipIdx_cons, List.filter_cons, if_neg (by simp [h])]
  rfl

theorem Segment.mem_presentRows :
    x ∈ root.presentRows n rows ↔ x ∈ rows.zipIdx n ∧ root.isPresent x.1 = true :=
  List.mem_filter

theorem Segment.exists_mem_presentRows (hrow : row ∈ rows) (h : root.isPresent row = true)
    (n : Nat) : ∃ k, (row, k) ∈ root.presentRows n rows := by
  rw [← List.zipIdx_map_fst n rows] at hrow
  obtain ⟨x, hx, rfl⟩ := List.mem_map.mp hrow
  exact ⟨x.2, mem_presentRows.mpr ⟨hx, h⟩⟩

/-- What a segment shows in a row is what the row shows for its relation. -/
theorem Shows.showsChild (h : Shows root related x w) (hseg : related[i]? = some seg) :
    ∃ shown, w.children[i]? = some shown ∧ seg.ShowsChild x shown := by
  obtain ⟨hi, rfl⟩ := List.getElem?_eq_some_iff.mp hseg
  have hlength := h.children.length_eq
  exact ⟨_, List.getElem?_eq_getElem (hlength ▸ hi), h.children.get hi (hlength ▸ hi)⟩

/-- What is shown is shown by one of the rows. -/
theorem exists_row_of_shows (hws : List.Forall₂ (Shows root related) (root.presentRows n rows) ws)
    (hw : w ∈ ws) : ∃ x ∈ rows.zipIdx n, Shows root related x w := by
  obtain ⟨x, hx, hshows⟩ := exists_of_mem_forall₂ hws hw
  exact ⟨x, (Segment.mem_presentRows.mp hx).1, hshows⟩

/-- A record that a row shows for relation number `i`, with its identity. -/
theorem mem_childrenOf {key : String} {c : Record × String} :
    c ∈ childrenOf ws key i ↔ ∃ w ∈ ws, w.key = key ∧ w.Child i c.1 c.2 := by
  simp only [childrenOf, List.mem_filterMap, List.mem_filter, beq_iff_eq, and_assoc]
  refine exists_congr fun w => and_congr_right fun _ => and_congr_right fun _ => ?_
  unfold Shown.Child
  cases w.children[i]? <;> simp

theorem childrenOf_concat (ws : List Shown) (w : Shown) (key : String) (i : Nat) :
    childrenOf (ws ++ [w]) key i =
      childrenOf ws key i ++ if w.key = key then (w.children[i]?.join).toList else [] := by
  unfold childrenOf
  by_cases hkey : w.key = key
  · cases hchild : w.children[i]?.join <;> simp [hkey, hchild]
  · simp [hkey]

/-- Nothing has been shown for a root that no row has shown. -/
theorem childrenOf_eq_nil {key : String} (h : ∀ w ∈ ws, w.key ≠ key) (i : Nat) :
    childrenOf ws key i = [] := by
  refine List.eq_nil_iff_forall_not_mem.mpr fun c hc => ?_
  obtain ⟨w, hw, hkey, -⟩ := mem_childrenOf.mp hc
  exact h w hw hkey

theorem mem_keys_rootsOf {key : String} :
    key ∈ (rootsOf ws).map (·.2) ↔ ∃ w ∈ ws, w.key = key := by
  rw [rootsOf, List.map_map]
  exact List.mem_map

end

/-! ## What a root holds -/

/-- Another relation has another slot. -/
theorem property_ne_of_ne {rs : List RelationDef} {r r' : RelationDef} {i j : Nat}
    (hnodup : (rs.map (·.property)).Nodup) (hr : rs[i]? = some r) (hr' : rs[j]? = some r')
    (hj : j ≠ i) : r'.property ≠ r.property := by
  intro equal
  have inside : j < (rs.map (·.property)).length := by
    simpa using (List.getElem?_eq_some_iff.mp hr').1
  refine hj ((List.getElem?_inj inside hnodup).mp ?_)
  rw [List.getElem?_map, List.getElem?_map, hr', hr, Option.map_some, Option.map_some, equal]

/-- The place of a segment among the related ones is that of its relation. -/
theorem exists_place_of_relation {rs : List RelationDef} {related : List Segment}
    (hrelations : List.Forall₂ (fun seg r => seg.relation = some r) related rs) {seg : Segment}
    {r : RelationDef} (hseg : seg ∈ related) (hr : seg.relation = some r) :
    ∃ i : Nat, related[i]? = some seg ∧ rs[i]? = some r := by
  induction hrelations with
  | nil => cases hseg
  | cons hrelation _ ih =>
      rcases List.mem_cons.mp hseg with rfl | hseg
      · exact ⟨0, rfl, hrelation.symm.trans hr⟩
      · obtain ⟨i, hi, hri⟩ := ih hseg
        exact ⟨i + 1, hi, hri⟩

/-- What a slot holds with related records in it, after what it held before: they take the place of
a single reference, and a collection goes on. -/
def RelationKind.filled (kind : RelationKind) (before attached : List Record) : List Record :=
  match kind with
  | .manyToOne => if attached.isEmpty then before else attached
  | .oneToMany => before ++ attached

/-- Of records that are attached one after the other, those that stay: a single reference keeps the
last one. -/
def RelationKind.latest (kind : RelationKind) (attached : List Record) : List Record :=
  match kind with
  | .manyToOne => attached.getLast?.toList
  | .oneToMany => attached

theorem RelationKind.filled_latest_nil (kind : RelationKind) (before : List Record) :
    kind.filled before (kind.latest []) = before := by
  cases kind with
  | manyToOne => rfl
  | oneToMany => exact List.append_nil before

/-- Where one record at most is attached to a reference, all of them stay. -/
theorem RelationKind.latest_eq {kind : RelationKind} {attached : List Record}
    (h : kind = .manyToOne → attached.length ≤ 1) : kind.latest attached = attached := by
  cases kind with
  | oneToMany => rfl
  | manyToOne =>
      match attached, h rfl with
      | [], _ => rfl
      | [_], _ => rfl

theorem RelationKind.filled_latest_concat (kind : RelationKind) (before attached : List Record)
    (child : Record) : kind.filled (kind.filled before (kind.latest attached)) [child] =
      kind.filled before (kind.latest (attached ++ [child])) := by
  cases kind with
  | manyToOne => simp [filled, latest]
  | oneToMany => exact List.append_assoc before attached [child]

/-- A record is attached if there is a slot for records of its type, which then holds it. -/
theorem Model.attach_eq_ok {m : Model} {root root' child : Record} {property : String} :
    m.attach root property child = .ok root' ↔
      ∃ s, root.slot? property = some s ∧ child.type = s.target ∧
        root' = root.withItems property (s.kind.filled s.items [child]) := by
  unfold attach
  cases hslot : root.slot? property with
  | none =>
      constructor
      · intro h
        cases h
      · rintro ⟨s, hs, -⟩
        cases hs
  | some s =>
      have held : root.hold property child =
          root.withItems property (s.kind.filled s.items [child]) := by
        unfold Record.hold RelationKind.filled
        simp only [hslot]
        cases s.kind <;> rfl
      simp only [held]
      split
      next htype =>
        constructor
        · rintro ⟨⟩
          exact ⟨s, rfl, htype, rfl⟩
        · rintro ⟨_, ⟨⟩, -, rfl⟩
          rfl
      next htype =>
        constructor
        · intro h
          cases h
        · rintro ⟨_, ⟨⟩, heq, -⟩
          exact absurd heq htype

/-- The records `shown i` have been attached for relation number `i` to the root `base`, the first
of each identity. -/
structure Filled (rs : List RelationDef) (base : Record) (shown : Nat → List (Record × String))
    (g : Gathered) : Prop where
  type_eq : g.root.type = base.type
  fields_eq : g.root.fields = base.fields
  slot_eq : ∀ q, q ∉ rs.map (·.property) → g.root.slot? q = base.slot? q
  attached_iff : ∀ i key, (i, key) ∈ g.attached ↔ key ∈ (shown i).map (·.2)
  slot : ∀ i r, rs[i]? = some r → g.root.slot? r.property = (base.slot? r.property).map fun s =>
    { s with items := s.kind.filled s.items (s.kind.latest ((firsts (shown i)).map (·.1))) }
  /-- Records are attached only where there is a slot. -/
  room : ∀ i r, rs[i]? = some r → shown i ≠ [] → (base.slot? r.property).isSome = true

namespace Filled

variable {rs : List RelationDef} {base : Record} {shown shown' : Nat → List (Record × String)}
  {g g' : Gathered} {m : Model} {x : Row × Nat} {i : Nat} {r : RelationDef} {seg : Segment}
  {first : Option (Record × String)}

theorem congr (h : Filled rs base shown g) (heq : ∀ i, shown i = shown' i) :
    Filled rs base shown' g := funext heq ▸ h

/-- Nothing has been attached to a new root. -/
theorem start (base : Record) (key : String) : Filled rs base (fun _ => []) ⟨key, base, []⟩ where
  type_eq := rfl
  fields_eq := rfl
  slot_eq _ _ := rfl
  attached_iff i key := by simp
  slot i r _ := by
    cases base.slot? r.property with
    | none => rfl
    | some s =>
        rw [firsts, List.foldl_nil, List.map_nil, Option.map_some, RelationKind.filled_latest_nil]
  room _ _ _ h := absurd rfl h

/-- A record of an identity that is attached already changes nothing. -/
theorem skip (h : Filled rs base shown g) {child : Record} {key : String}
    (hattached : (i, key) ∈ g.attached) :
    Filled rs base (fun j => if j = i then shown i ++ [(child, key)] else shown j) g where
  type_eq := h.type_eq
  fields_eq := h.fields_eq
  slot_eq := h.slot_eq
  attached_iff j key' := by
    by_cases hj : j = i
    · subst hj
      rw [if_pos rfl, h.attached_iff, List.map_append, List.mem_append, List.map_singleton,
        List.mem_singleton]
      refine ⟨.inl, ?_⟩
      rintro (hkey | rfl)
      · exact hkey
      · exact (h.attached_iff j _).mp hattached
    · rw [if_neg hj, h.attached_iff]
  slot j r hr := by
    by_cases hj : j = i
    · subst hj
      rw [if_pos rfl, firsts_concat, if_pos, h.slot j r hr]
      exact (mem_keys_firsts _ _).mpr ((h.attached_iff j key).mp hattached)
    · rw [if_neg hj, h.slot j r hr]
  room j r hr _ := by
    by_cases hj : j = i
    · refine h.room j r hr fun nothing => ?_
      have attached := (h.attached_iff i key).mp hattached
      rw [← hj, nothing] at attached
      cases attached
    · refine h.room j r hr ?_
      rwa [if_neg hj] at *

/-- Attaching a record of a new identity. -/
theorem attach (h : Filled rs base shown g) (hnodup : (rs.map (·.property)).Nodup)
    (hr : rs[i]? = some r) {child root : Record} {key : String} (hnew : (i, key) ∉ g.attached)
    (hattach : m.attach g.root r.property child = .ok root) :
    Filled rs base (fun j => if j = i then shown i ++ [(child, key)] else shown j)
      { g with root, attached := (i, key) :: g.attached } := by
  have fresh : key ∉ (firsts (shown i)).map (·.2) := fun hkey =>
    hnew ((h.attached_iff i key).mpr ((mem_keys_firsts _ _).mp hkey))
  -- the record is put into the slot of its relation
  obtain ⟨s', hs', -, rfl⟩ := Model.attach_eq_ok.mp hattach
  rw [h.slot i r hr] at hs'
  obtain ⟨s, hs, rfl⟩ := Option.map_eq_some_iff.mp hs'
  have held : s.kind.filled (s.kind.filled s.items (s.kind.latest ((firsts (shown i)).map (·.1))))
      [child] = s.kind.filled s.items
        (s.kind.latest ((firsts (shown i ++ [(child, key)])).map (·.1))) := by
    rw [firsts_concat, if_neg fresh, List.map_append]
    exact s.kind.filled_latest_concat s.items _ child
  exact {
    type_eq := h.type_eq
    fields_eq := h.fields_eq
    slot_eq := fun q hq => by
      have apart : q ≠ r.property := fun equal =>
        hq (equal ▸ List.mem_map_of_mem (List.mem_of_getElem? hr))
      rw [Record.slot?_withItems, if_neg apart, h.slot_eq q hq]
    attached_iff := fun j key' => by
      rw [List.mem_cons, h.attached_iff, Prod.mk.injEq]
      by_cases hj : j = i
      · subst hj
        simp [or_comm]
      · simp [hj]
    slot := fun j r' hr' => by
      by_cases hj : j = i
      · subst hj
        rw [hr] at hr'
        cases hr'
        rw [Record.slot?_withItems, if_pos rfl, if_pos rfl, h.slot j r hr, hs]
        exact congrArg (fun items => some { s with items }) held
      · have apart := property_ne_of_ne hnodup hr hr' hj
        rw [Record.slot?_withItems, if_neg apart, if_neg hj, h.slot j r' hr']
    room := fun j r' hr' hne => by
      by_cases hj : j = i
      · subst hj
        rw [hr] at hr'
        cases hr'
        rw [hs]
        rfl
      · rw [if_neg hj] at hne
        exact h.room j r' hr' hne }

end Filled

/-! ## Attaching what a row shows -/

/-- What a segment does with what it shows. -/
theorem Model.attachSegment_of_showsChild (m : Model) {x : Row × Nat} {seg : Segment}
    {r : RelationDef} (hrelation : seg.relation = some r) {first : Option (Record × String)}
    (h : seg.ShowsChild x first) (g : Gathered) (i : Nat) :
    m.attachSegment x.1 x.2 g i seg = match first with
      | none => .ok g
      | some (child, key) =>
          if (i, key) ∈ g.attached then .ok g
          else (m.attach g.root r.property child).map fun root =>
            { g with root, attached := (i, key) :: g.attached } := by
  unfold attachSegment
  cases first with
  | none =>
      have hread : seg.readRow x.1 = .ok none := h
      simp only [hrelation, hread, ok_bind]
      rfl
  | some c =>
      obtain ⟨hread, hkey⟩ : seg.ShowsRecord x c.1 c.2 := h
      simp only [hrelation, hread, hkey, ok_bind, List.contains_iff_mem]
      split
      · rfl
      · cases m.attach g.root r.property c.1 <;> rfl

namespace Filled

variable {rs : List RelationDef} {base : Record} {shown : Nat → List (Record × String)}
  {g g' : Gathered} {m : Model} {x : Row × Nat} {i : Nat} {r : RelationDef} {seg : Segment}
  {first : Option (Record × String)}

/-- A segment attaches what it shows in a row. -/
theorem attachSegment (h : Filled rs base shown g) (hnodup : (rs.map (·.property)).Nodup)
    (hr : rs[i]? = some r) (hrelation : seg.relation = some r) (hfirst : seg.ShowsChild x first)
    (hok : m.attachSegment x.1 x.2 g i seg = .ok g') :
    g'.key = g.key ∧
      Filled rs base (fun j => if j = i then shown i ++ first.toList else shown j) g' := by
  rw [m.attachSegment_of_showsChild hrelation hfirst] at hok
  cases first with
  | none =>
      cases hok
      refine ⟨rfl, h.congr fun j => ?_⟩
      by_cases hj : j = i
      · rw [hj, if_pos rfl, Option.toList_none, List.append_nil]
      · rw [if_neg hj]
  | some c =>
      simp only at hok
      split at hok
      next hattached =>
        cases hok
        exact ⟨rfl, h.skip hattached⟩
      next hnew =>
        obtain ⟨root, hroot, rfl⟩ := ok_of_map hok
        exact ⟨rfl, h.attach hnodup hr hnew hroot⟩

/-- The segments from number `i` on attach what they show in a row. -/
theorem attachSegments (h : Filled rs base shown g) (hnodup : (rs.map (·.property)).Nodup)
    {segs : List Segment} {rs' : List RelationDef} {children : List (Option (Record × String))}
    (hrelations : List.Forall₂ (fun seg r => seg.relation = some r) segs rs')
    (hrs : rs.drop i = rs') (hchildren : List.Forall₂ (Segment.ShowsChild x) segs children)
    (hok : m.attachSegments x.1 x.2 i segs g = .ok g') :
    g'.key = g.key ∧ Filled rs base
      (fun j => shown j ++ if i ≤ j then (children[j - i]?.join).toList else []) g' := by
  induction hrelations generalizing i children shown g with
  | nil =>
      cases hok
      cases hchildren
      exact ⟨rfl, h.congr fun j => by simp⟩
  | @cons seg r segs rs' hrelation hrelations ih =>
      cases hchildren with
      | @cons _ first _ rest hfirst hrest =>
          have hr : rs[i]? = some r := by
            rw [← Nat.add_zero i, ← List.getElem?_drop, hrs]
            rfl
          obtain ⟨g₁, hg₁, hok⟩ := ok_of_bind hok
          obtain ⟨hkey₁, h₁⟩ := h.attachSegment hnodup hr hrelation hfirst hg₁
          obtain ⟨hkey₂, h₂⟩ := ih h₁ (by rw [← List.tail_drop, hrs]; rfl) hrest hok
          refine ⟨hkey₂.trans hkey₁, h₂.congr fun j => ?_⟩
          rcases Nat.lt_trichotomy j i with hj | rfl | hj
          · simp [Nat.ne_of_lt hj, Nat.not_le.mpr hj, show ¬ i + 1 ≤ j by omega]
          · simp [show ¬ j + 1 ≤ j by omega]
          · have next : j - i = j - (i + 1) + 1 := by omega
            simp [Nat.ne_of_gt hj, Nat.le_of_lt hj, show i + 1 ≤ j from hj, next]

end Filled

/-! ## Gathering rows -/

/-- The roots with the one of this identity, which is added without any related records if it is
new. -/
def withRoot (gs : List Gathered) (record : Record) (key : String) : List Gathered :=
  if gs.any (·.key == key) then gs else gs ++ [⟨key, record, []⟩]

/-- What is gathered when the roots `roots` have been met, in rows that show `ws`: the first root
of each identity, with the first record of each identity that its rows show. -/
def GathersFrom (rs : List RelationDef) (roots : List (Record × String)) (ws : List Shown)
    (gs : List Gathered) : Prop :=
  List.Forall₂ (fun root g => g.key = root.2 ∧ Filled rs root.1 (childrenOf ws root.2) g)
    (firsts roots) gs

section

variable {m : Model} {rs : List RelationDef} {roots : List (Record × String)} {ws : List Shown}
  {gs gs' : List Gathered} {root : Segment} {related : List Segment} {x : Row × Nat} {w : Shown}
  {row : Row} {rows : List Row} {n : Nat}

/-- A row that shows a root. -/
theorem Model.gatherRow_of_shows (m : Model) (h : root.ShowsRecord x w.root w.key)
    (gs : List Gathered) : m.gatherRow root related gs x.1 x.2 =
      updateRoot (m.attachSegments x.1 x.2 0 related) w.key (withRoot gs w.root w.key) := by
  unfold gatherRow
  rw [h.1, ok_bind]
  simp only [h.2, ok_bind]
  rfl

/-- A row without a root is passed over. -/
theorem Model.gatherRow_of_absent (m : Model) (h : root.isPresent row = false)
    (gs : List Gathered) : m.gatherRow root related gs row n = .ok gs := by
  unfold gatherRow
  rw [Segment.readRow_eq_none.mpr h, ok_bind]
  rfl

/-- The change of the root of one identity leaves the others. -/
theorem forall₂_of_updateRoot {change : Gathered → Except Error Gathered} {key : String}
    (hnodup : (gs.map (·.key)).Nodup) (h : updateRoot change key gs = .ok gs') :
    List.Forall₂ (fun g g' => g.key = key ∧ change g = .ok g' ∨ g.key ≠ key ∧ g' = g)
      gs gs' := by
  induction gs generalizing gs' with
  | nil =>
      cases h
      exact .nil
  | cons g gs ih =>
      rw [List.map_cons, List.nodup_cons] at hnodup
      unfold updateRoot at h
      by_cases hkey : g.key = key
      · rw [if_pos hkey] at h
        obtain ⟨g', hg, rfl⟩ := ok_of_map h
        refine .cons (.inl ⟨hkey, hg⟩) (List.forall₂_same.mpr fun k hk => .inr ⟨?_, rfl⟩)
        rintro rfl
        exact hnodup.1 (hkey ▸ List.mem_map_of_mem hk)
      · rw [if_neg hkey] at h
        obtain ⟨rest, hrest, rfl⟩ := ok_of_map h
        exact .cons (.inr ⟨hkey, rfl⟩) (ih hnodup.2 hrest)

namespace GathersFrom

theorem keys_eq (h : GathersFrom rs roots ws gs) :
    gs.map (·.key) = (firsts roots).map (·.2) :=
  (map_eq_map_iff_forall₂.mpr (h.imp fun _ _ hg => hg.1.symm)).symm

theorem keys_nodup (h : GathersFrom rs roots ws gs) : (gs.map (·.key)).Nodup := by
  rw [h.keys_eq]
  exact nodup_firsts _

/-- The identities of what has been gathered are those that rows have shown. -/
theorem mem_keys (h : GathersFrom rs (rootsOf ws) ws gs) {key : String} :
    key ∈ gs.map (·.key) ↔ ∃ w ∈ ws, w.key = key := by
  rw [h.keys_eq, mem_keys_firsts, mem_keys_rootsOf]

/-- Every root that is gathered is that of a row, filled with what the rows show for it. -/
theorem exists_of_mem (h : GathersFrom rs (rootsOf ws) ws gs) {g : Gathered} (hg : g ∈ gs) :
    ∃ w ∈ ws, w.key = g.key ∧ Filled rs w.root (childrenOf ws g.key) g := by
  obtain ⟨p, hp, hkey, hfilled⟩ := exists_of_mem_forall₂ h hg
  obtain ⟨w, hw, rfl⟩ := List.mem_map.mp (mem_of_mem_firsts hp)
  exact ⟨w, hw, hkey.symm, hkey ▸ hfilled⟩

/-- The root of a row is there, or it is added. -/
theorem withRoot (h : GathersFrom rs (rootsOf ws) ws gs) (record : Record) (key : String) :
    GathersFrom rs (rootsOf ws ++ [(record, key)]) ws (withRoot gs record key) := by
  unfold GathersFrom GraphStore.withRoot
  rw [firsts_concat, ← h.keys_eq]
  by_cases hkey : key ∈ gs.map (·.key)
  · rw [if_pos hkey, if_pos]
    · exact h
    · simpa using hkey
  · rw [if_neg hkey, if_neg]
    · refine List.rel_append h (.cons ⟨rfl, (Filled.start record key).congr fun i => ?_⟩ .nil)
      refine (childrenOf_eq_nil (fun w hw equal => hkey ?_) i).symm
      exact h.mem_keys.mpr ⟨w, hw, equal⟩
    · simpa using hkey

/-- One more row that shows a root. -/
theorem gatherRow (h : GathersFrom rs (rootsOf ws) ws gs) (hnodup : (rs.map (·.property)).Nodup)
    (hrelations : List.Forall₂ (fun seg r => seg.relation = some r) related rs)
    (hshows : Shows root related x w) (hok : m.gatherRow root related gs x.1 x.2 = .ok gs') :
    GathersFrom rs (rootsOf (ws ++ [w])) (ws ++ [w]) gs' := by
  rw [m.gatherRow_of_shows hshows.root] at hok
  have hroot := h.withRoot w.root w.key
  have hchanged := forall₂_of_updateRoot hroot.keys_nodup hok
  unfold GathersFrom
  rw [rootsOf, List.map_append, List.map_singleton]
  refine (forall₂_comp hroot hchanged).imp fun root' g' => ?_
  rintro ⟨g, ⟨hgkey, hfilled⟩, ⟨hthis, hg⟩ | ⟨hother, rfl⟩⟩
  · obtain ⟨hkey', hfilled'⟩ :=
      hfilled.attachSegments hnodup hrelations List.drop_zero hshows.children hg
    refine ⟨hkey'.trans hgkey, hfilled'.congr fun i => ?_⟩
    rw [childrenOf_concat, if_pos (hthis.symm.trans hgkey), if_pos (Nat.zero_le i), Nat.sub_zero]
  · refine ⟨hgkey, hfilled.congr fun i => ?_⟩
    rw [childrenOf_concat, if_neg fun equal => hother (hgkey.trans equal.symm), List.append_nil]

/-- Any number of rows more. -/
theorem gatherRows {more : List Shown} (h : GathersFrom rs (rootsOf ws) ws gs)
    (hnodup : (rs.map (·.property)).Nodup)
    (hrelations : List.Forall₂ (fun seg r => seg.relation = some r) related rs)
    (hshows : List.Forall₂ (Shows root related) (root.presentRows n rows) more)
    (hok : m.gatherRows root related n rows gs = .ok gs') :
    GathersFrom rs (rootsOf (ws ++ more)) (ws ++ more) gs' := by
  induction rows generalizing ws gs n more with
  | nil =>
      cases hok
      cases hshows
      rwa [List.append_nil]
  | cons row rows ih =>
      obtain ⟨gs₁, hgs₁, hrest⟩ := ok_of_bind hok
      cases hpresent : root.isPresent row with
      | true =>
          rw [Segment.presentRows_cons_of_present hpresent] at hshows
          cases hshows with
          | cons hw hmore =>
              rw [List.append_cons]
              exact ih (h.gatherRow hnodup hrelations hw hgs₁) hmore hrest
      | false =>
          rw [Segment.presentRows_cons_of_absent hpresent] at hshows
          rw [m.gatherRow_of_absent hpresent] at hgs₁
          cases hgs₁
          exact ih h hshows hrest

end GathersFrom

end

end GraphStore
