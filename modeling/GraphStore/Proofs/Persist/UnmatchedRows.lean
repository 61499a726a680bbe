import GraphStore.Proofs.Persist.JoinedRows
import GraphStore.Proofs.Statement.Rows

/-!
# Rows without a partner

The row of an outer join without a partner has nothing but nulls in the segment of the relation.
Whether a segment shows a record is read off its key columns. So such a row attaches nothing where
the target has a key, and cannot make the select fail there. A target without a key has no column
that could be empty: its segment shows a record in every row, a new one where there are only nulls
(`LeavesOutUnmatched`).
-/

set_option autoImplicit false

namespace GraphStore

/-! ## Segments of nulls -/

namespace Segment

variable {seg : Segment} {row : Row}

/-- All cells that the row has in the segment are null. -/
def AllNull (seg : Segment) (row : Row) : Prop :=
  ∀ p v, seg.cell? row p = some v → v.isNull = true

/-- A segment with a key shows nothing there. -/
theorem readRow_of_allNull (hderived : seg.map.Derived) (keyed : seg.map.keys.isEmpty = false)
    (h : seg.AllNull row) : seg.readRow row = .ok none := by
  have required : seg.map.requireKeys = .ok () := by
    rw [EntityMap.requireKeys, keyed]
    rfl
  obtain ⟨c, hc⟩ := List.exists_mem_of_ne_nil _ (hderived.keyColumns_ne_nil required)
  rw [readRow_eq_none, Bool.eq_false_iff]
  intro present
  obtain ⟨v, hv, hkey⟩ := isPresent_iff.mp present c hc
  have hnull := h c.property v hv
  rw [Value.isNull_eq_false hkey] at hnull
  cases hnull

/-- A segment without a key shows a record in every row. -/
theorem readRow_ne_none (keyless : seg.map.keys.isEmpty = true) : seg.readRow row ≠ .ok none := by
  rw [ne_eq, readRow_eq_none, isPresent, EntityMap.keyColumns, List.isEmpty_iff.mp keyless]
  exact Bool.true_eq_false.mp

end Segment

/-! ## Attaching the segments of a row -/

section

variable {m : Model} {row : Row} {n i : Nat} {g g' : Gathered} {seg : Segment}
  {segs : List Segment} {r : RelationDef}

/-- Without a partner, a segment with a key leaves the root as it is. -/
theorem attachSegment_of_allNull (hderived : seg.map.Derived)
    (keyed : seg.map.keys.isEmpty = false) (h : seg.AllNull row) :
    m.attachSegment row n g i seg = .ok g := by
  unfold Model.attachSegment
  cases seg.relation with
  | none => rfl
  | some r =>
      simp only [Segment.readRow_of_allNull hderived keyed h, ok_bind]
      rfl

/-- If the segments of a row cannot be attached, one of them cannot. -/
theorem error_of_attachSegments {e : Error} (h : m.attachSegments row n i segs g = .error e) :
    ∃ seg ∈ segs, ∃ g' j, m.attachSegment row n g' j seg = .error e := by
  induction segs generalizing i g with
  | nil => cases h
  | cons seg segs ih =>
      rcases error_of_bind h with hfirst | ⟨g₁, -, h⟩
      · exact ⟨seg, List.mem_cons_self, g, i, hfirst⟩
      · obtain ⟨seg', hseg', rest⟩ := ih h
        exact ⟨seg', List.mem_cons_of_mem seg hseg', rest⟩

end

/-! ## Roots and their rows -/

/-- The row of this number shows a root of this identity. -/
def Segment.ShowsRoot (root : Segment) (x : Row × Nat) (key : String) : Prop :=
  ∃ record, root.ShowsRecord x record key

/-- All rows of the root of this identity are without a partner in the segment. -/
def Segment.Unmatched (root seg : Segment) (rows : List (Row × Nat)) (key : String) : Prop :=
  ∀ x ∈ rows, root.ShowsRoot x key → seg.AllNull x.1

section

variable {m : Model} {rs : List RelationDef} {root seg : Segment} {related : List Segment}
  {rows : List Row} {ws : List Shown} {gs : List Gathered} {row : Row} {n i : Nat} {g : Gathered}
  {r : RelationDef}

/-- The identities of the roots that rows show. -/
theorem exists_key_iff (hws : List.Forall₂ (Shows root related) (root.presentRows 0 rows) ws)
    (key : String) : (∃ w ∈ ws, w.key = key) ↔ ∃ x ∈ rows.zipIdx, root.ShowsRoot x key := by
  constructor
  · rintro ⟨w, hw, rfl⟩
    obtain ⟨x, hx, hshows⟩ := exists_row_of_shows hws hw
    exact ⟨x, hx, w.root, hshows.root⟩
  · rintro ⟨x, hx, record, hrecord⟩
    obtain ⟨w, hw, hshows⟩ := exists_of_mem_forall₂ hws.flip
      (Segment.mem_presentRows.mpr ⟨hx, Segment.isPresent_of_readRow hrecord.1⟩)
    -- the row shows one root only
    obtain rfl : w.root = record := by simpa using hshows.root.1.symm.trans hrecord.1
    exact ⟨w, hw, Except.ok.inj (hshows.root.2.symm.trans hrecord.2)⟩

/-- Rows without a partner show nothing for their root. -/
theorem childrenOf_of_unmatched
    (hws : List.Forall₂ (Shows root related) (root.presentRows 0 rows) ws)
    (hderived : seg.map.Derived) (keyed : seg.map.keys.isEmpty = false)
    (hseg : related[i]? = some seg) {key : String} (h : root.Unmatched seg rows.zipIdx key) :
    childrenOf ws key i = [] := by
  refine List.eq_nil_iff_forall_not_mem.mpr fun c hc => ?_
  obtain ⟨w, hw, rfl, hchild⟩ := mem_childrenOf.mp hc
  obtain ⟨x, hx, hshows⟩ := exists_row_of_shows hws hw
  obtain ⟨shown, hshown, hfirst⟩ := hshows.showsChild hseg
  cases hshown.symm.trans hchild
  have record : seg.ShowsRecord x c.1 c.2 := hfirst
  have nothing := Segment.readRow_of_allNull hderived keyed (h x hx ⟨w.root, hshows.root⟩)
  rw [record.1] at nothing
  cases nothing

/-- Without keys, every row shows something for its root. -/
theorem childrenOf_of_keyless
    (hws : List.Forall₂ (Shows root related) (root.presentRows 0 rows) ws)
    (keyless : seg.map.keys.isEmpty = true) (hseg : related[i]? = some seg) {w : Shown}
    (hw : w ∈ ws) : childrenOf ws w.key i ≠ [] := by
  obtain ⟨x, -, hshows⟩ := exists_row_of_shows hws hw
  obtain ⟨shown, hshown, hfirst⟩ := hshows.showsChild hseg
  cases shown with
  | none => exact absurd hfirst (Segment.readRow_ne_none keyless)
  | some c => exact List.ne_nil_of_mem (mem_childrenOf.mpr ⟨w, hw, rfl, hshown⟩)

/-- A slot for which nothing has been shown is as it was. -/
theorem Filled.slot?_eq {base : Record} {shown : Nat → List (Record × String)}
    (h : Filled rs base shown g) (hr : rs[i]? = some r) (nothing : shown i = []) :
    g.root.slot? r.property = base.slot? r.property := by
  have slot := h.slot i r hr
  rw [nothing, firsts, List.foldl_nil, List.map_nil] at slot
  simpa only [RelationKind.filled_latest_nil, Option.map_id'] using slot

/-- A slot for which something has been shown is not empty. -/
theorem Filled.items_ne_nil {base : Record} {shown : Nat → List (Record × String)}
    (h : Filled rs base shown g) (hr : rs[i]? = some r) (something : shown i ≠ []) :
    g.root.items r.property ≠ [] := by
  obtain ⟨s, hs⟩ := Option.isSome_iff_exists.mp (h.room i r hr something)
  have slot := h.slot i r hr
  rw [hs, Option.map_some] at slot
  have attached : firsts (shown i) ≠ [] := mt (firsts_eq_nil_iff _).mp something
  rw [Record.items_of_slot? slot]
  cases s.kind <;> simp [RelationKind.filled, RelationKind.latest, attached]

/-! ## Rows that cannot be gathered -/

/-- The row of this number cannot be gathered: its root cannot be read or identified, or what a
segment shows there cannot be attached. A segment with a key in which the row has no partner is
never the reason. -/
def Model.Obstructs (m : Model) (root : Segment) (related : List Segment) (x : Row × Nat)
    (e : Error) : Prop :=
  root.readRow x.1 = .error e ∨
  (∃ record, root.readRow x.1 = .ok (some record) ∧ root.map.identity record x.2 = .error e) ∨
  ∃ seg ∈ related, ¬ (seg.map.keys.isEmpty = false ∧ seg.AllNull x.1) ∧
    ∃ g i, m.attachSegment x.1 x.2 g i seg = .error e

theorem error_of_updateRoot {change : Gathered → Except Error Gathered} {key : String} {e : Error}
    (h : updateRoot change key gs = .error e) : ∃ g, change g = .error e := by
  induction gs with
  | nil => cases h
  | cons g gs ih =>
      unfold updateRoot at h
      split at h
      · exact ⟨g, error_of_map h⟩
      · exact ih (error_of_map h)

theorem obstructs_of_gatherRow (hderived : ∀ seg ∈ related, seg.map.Derived) {e : Error}
    (h : m.gatherRow root related gs row n = .error e) : m.Obstructs root related (row, n) e := by
  rcases error_of_bind h with hread | ⟨record?, hread, h⟩
  · exact .inl hread
  cases record? with
  | none => cases h
  | some record =>
      rcases error_of_bind h with hkey | ⟨key, -, h⟩
      · exact .inr (.inl ⟨record, hread, hkey⟩)
      · obtain ⟨g, hg⟩ := error_of_updateRoot h
        obtain ⟨seg, hseg, g', i, hattach⟩ := error_of_attachSegments hg
        refine .inr (.inr ⟨seg, hseg, ?_, g', i, hattach⟩)
        rintro ⟨keyed, null⟩
        rw [attachSegment_of_allNull (hderived seg hseg) keyed null] at hattach
        cases hattach

/-- If rows cannot be gathered, one of them cannot. -/
theorem exists_obstructs_of_gatherRows (hderived : ∀ seg ∈ related, seg.map.Derived)
    {rows : List Row} {e : Error} (h : m.gatherRows root related n rows gs = .error e) :
    ∃ x ∈ rows.zipIdx n, m.Obstructs root related x e := by
  induction rows generalizing gs n with
  | nil => cases h
  | cons row rows ih =>
      rw [List.zipIdx_cons]
      rcases error_of_bind h with hrow | ⟨gs₁, -, h⟩
      · exact ⟨(row, n), List.mem_cons_self, obstructs_of_gatherRow hderived hrow⟩
      · obtain ⟨x, hx, hobstructs⟩ := ih h
        exact ⟨x, List.mem_cons_of_mem _ hx, hobstructs⟩

end

/-! ## Selects -/

/-- What rows without a partner come to when rows are put together. -/
structure LeavesOutUnmatched (m : Model) (root : Segment) (related : List Segment)
    (rows : List Row) : Prop where
  /-- Where the target has a key, such a row attaches nothing, whatever has been gathered. -/
  nothing : ∀ seg ∈ related, seg.map.keys.isEmpty = false → ∀ row, seg.AllNull row → ∀ n g i,
    m.attachSegment row n g i seg = .ok g
  /-- Nor is it the reason if the rows cannot be put together. -/
  obstructed : ∀ e, m.graphs (root :: related) rows = .error e →
    ∃ x ∈ rows.zipIdx, m.Obstructs root related x e
  /-- There is one record for each identity of the entity, and one without any partner has the slot
  of a new record. -/
  slot_eq : ∀ records, m.graphs (root :: related) rows = .ok records → ∃ keys : List String,
    keys.Nodup ∧ (∀ key, key ∈ keys ↔ ∃ x ∈ rows.zipIdx, root.ShowsRoot x key) ∧
    List.Forall₂ (fun key record =>
      (∃ x ∈ rows.zipIdx, ∃ shown, root.ShowsRecord x shown key ∧ record.fields = shown.fields) ∧
      ∀ seg ∈ related, seg.map.keys.isEmpty = false → ∀ r, seg.relation = some r →
        root.Unmatched seg rows.zipIdx key →
        record.slot? r.property = root.map.prototype.slot? r.property) keys records
  /-- Where the target has no key, no row is without a partner: every record has something in its
  slot. -/
  filled : ∀ seg ∈ related, seg.map.keys.isEmpty = true → (∀ row, seg.readRow row ≠ .ok none) ∧
    ∀ r, seg.relation = some r → ∀ records, m.graphs (root :: related) rows = .ok records →
      ∀ record ∈ records, record.items r.property ≠ []

theorem leavesOutUnmatched {m : Model} {rs : List RelationDef} {root : Segment}
    {related : List Segment} (hnodup : (rs.map (·.property)).Nodup)
    (hrelations : List.Forall₂ (fun seg r => seg.relation = some r) related rs)
    (hderived : ∀ seg ∈ related, seg.map.Derived) (rows : List Row) :
    LeavesOutUnmatched m root related rows := by
  refine ⟨fun seg hseg keyed row null n g i =>
    attachSegment_of_allNull (hderived seg hseg) keyed null, fun e herror =>
    exists_obstructs_of_gatherRows hderived (error_of_map herror), fun records hok => ?_,
    fun seg hseg keyless => ⟨fun row => Segment.readRow_ne_none keyless,
      fun r hr records hok => ?_⟩⟩
  · obtain ⟨ws, gs, hws, h, rfl⟩ := gathersFrom_of_graphs hnodup hrelations hok
    refine ⟨gs.map (·.key), h.keys_nodup, fun key => h.mem_keys.trans (exists_key_iff hws key), ?_⟩
    rw [List.forall₂_map_left_iff, List.forall₂_map_right_iff, List.forall₂_same]
    intro g hg
    obtain ⟨w, hw, hkey, hfilled⟩ := h.exists_of_mem hg
    obtain ⟨x, hx, hshows⟩ := exists_row_of_shows hws hw
    refine ⟨⟨x, hx, w.root, hkey ▸ hshows.root, hfilled.fields_eq⟩,
      fun seg hseg keyed r hr unmatched => ?_⟩
    obtain ⟨i, hi, hri⟩ := exists_place_of_relation hrelations hseg hr
    rw [hfilled.slot?_eq hri (childrenOf_of_unmatched hws (hderived seg hseg) keyed hi unmatched)]
    exact Record.slot?_congr (Segment.slots_of_readRow hshows.root.1) r.property
  · obtain ⟨ws, gs, hws, h, rfl⟩ := gathersFrom_of_graphs hnodup hrelations hok
    intro record hrecord
    obtain ⟨g, hg, rfl⟩ := List.mem_map.mp hrecord
    obtain ⟨w, hw, hkey, hfilled⟩ := h.exists_of_mem hg
    obtain ⟨i, hi, hri⟩ := exists_place_of_relation hrelations hseg hr
    exact hfilled.items_ne_nil hri (hkey ▸ childrenOf_of_keyless hws keyless hi hw)

/-- **Rows without a partner.** Take any select and any rows. Where the target of an included
relation has a key, of one column or of several, a row with nothing but nulls in its segment
attaches no record and is not the reason if the rows cannot be put together; and a record of which
all rows are like that has the slot of a new record. Where the target has no key, every row attaches
a record or fails, so that no slot stays empty. -/
theorem unmatched_of_select {m : Model} {map : EntityMap} {p : Predicate} {includes : List String}
    {options : SelectOptions} {st : SelectStatement}
    (hselect : m.select map p includes options = .ok st) (rows : List Row) :
    ∃ root related, st.segments = root :: related ∧ root.map = map ∧
      List.Forall₂ (fun name seg => ∃ r, map.relation name = .ok r ∧ seg.relation = some r ∧
        m.entityMap r.target = .ok seg.map) includes related ∧
      LeavesOutUnmatched m root related rows := by
  obtain ⟨root, related, rs, hsegments, hroot, hincluded, hrelations, -, hnodup⟩ :=
    related_of_select hselect
  refine ⟨root, related, hsegments, hroot, hincluded,
    leavesOutUnmatched hnodup hrelations (fun seg hseg => ?_) rows⟩
  obtain ⟨name, -, r, -, -, htarget⟩ := exists_of_mem_forall₂ hincluded hseg
  exact Model.derived_of_entityMap htarget

namespace Sample

/-- A course without tags. -/
theorem unmatched_of_select_courses : ∃ st root related,
    (model none none).select courses (.constant true) ["tags"] {} = .ok st ∧
    st.segments = root :: related ∧
    LeavesOutUnmatched (model none none) root related [courseRow "ALG" none] ∧
    ∃ records, (model none none).graphs st.segments [courseRow "ALG" none] = .ok records ∧
      (records.map fun r => (r.items "tags").length) = [0] := by
  obtain ⟨st, hst, records, hrecords, hlengths⟩ : ∃ st,
      (model none none).select courses (.constant true) ["tags"] {} = .ok st ∧
      ∃ records, (model none none).graphs st.segments [courseRow "ALG" none] = .ok records ∧
        (records.map fun r => (r.items "tags").length) = [0] := ⟨_, rfl, _, rfl, rfl⟩
  obtain ⟨root, related, hsegments, -, -, h⟩ := unmatched_of_select hst [courseRow "ALG" none]
  exact ⟨st, root, related, hst, hsegments, h, records, hrecords, hlengths⟩

/-- Main records have peers without a key, which have one more column. -/
def keylessPeers (property : String) : Model := model
  (some {
    table := "mains"
    columns := [generatedColumn "id"]
    relations := [oneToMany "peers" "Peer" "id" "main_id"] })
  (some { table := "peers", columns := [column "main_id", column property] })

/-- A row with a main record and no peer. -/
def lonelyRow : Row := ⟨[], [.null, .int64 (some 1), .null, .null, .null]⟩

theorem allNull_lonelyRow {seg : Segment} (h : seg.start = 2) : seg.AllNull lonelyRow := by
  intro p v hv
  obtain ⟨i, hi, hvalue⟩ := Option.bind_eq_some_iff.mp hv
  obtain ⟨k, -, rfl⟩ := Option.map_eq_some_iff.mp hi
  rw [h] at hvalue
  have null : ∀ v ∈ lonelyRow.values.drop 3, v.isNull = true := by decide
  refine null v (List.mem_of_getElem? (i := k) ?_)
  rw [List.getElem?_drop]
  exact hvalue

/-- A main record without peers: if they have no key, it is given one, and if nothing can be read
from a null, the select fails. -/
theorem graphs_of_keyless_peers :
    (∃ map st root seg record, (keylessPeers "text").entityMap "Main" = .ok map ∧
      (keylessPeers "text").select map (.constant true) ["peers"] {} = .ok st ∧
      st.segments = [root, seg] ∧ seg.AllNull lonelyRow ∧
      (keylessPeers "text").graphs st.segments [lonelyRow] = .ok [record] ∧
      record.items "peers" ≠ []) ∧
    ∃ map st root seg e, (keylessPeers "code").entityMap "Main" = .ok map ∧
      (keylessPeers "code").select map (.constant true) ["peers"] {} = .ok st ∧
      st.segments = [root, seg] ∧ seg.AllNull lonelyRow ∧
      (keylessPeers "code").graphs st.segments [lonelyRow] = .error e :=
  ⟨⟨_, _, _, _, _, rfl, rfl, rfl, allNull_lonelyRow rfl, rfl, List.cons_ne_nil _ _⟩,
    _, _, _, _, _, rfl, rfl, rfl, allNull_lonelyRow rfl, rfl⟩

end Sample

end GraphStore
