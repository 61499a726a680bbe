import GraphStore.Proofs.Persist.JoinedRows

/-!
# Single references in any rows

A single reference does not stay as it was set first. Each row of a record that shows an identity
no row before it has shown puts what it shows in place of what is there, so that in the end the
slot holds what the last of these rows shows (`ReferenceFrom`). That is what the first row with a
key shows if and only if all rows of the record agree on the identity.
-/

set_option autoImplicit false

namespace GraphStore

/-! ## The last item of a new identity -/

/-- The last item of a new identity: none before it has its identity, and every identity after it
is one that was there by then. -/
theorem exists_getLast?_firsts {xs : List (Record × String)} (h : xs ≠ []) :
    ∃ before x after, xs = before ++ x :: after ∧ (firsts xs).getLast? = some x ∧
      x.2 ∉ before.map (·.2) ∧ ∀ y ∈ after, y.2 ∈ (before ++ [x]).map (·.2) := by
  induction xs using List.reverseRecOn with
  | nil => exact absurd rfl h
  | append_singleton xs y ih =>
      rw [firsts_concat]
      by_cases hy : y.2 ∈ (firsts xs).map (·.2)
      · -- the identity was there, so that the last new one is where it was
        rw [if_pos hy]
        rw [mem_keys_firsts] at hy
        have nonempty : xs ≠ [] := by
          rintro rfl
          cases hy
        obtain ⟨before, x, after, rfl, hlast, hnew, hold⟩ := ih nonempty
        refine ⟨before, x, after ++ [y], by simp, hlast, hnew, fun z hz => ?_⟩
        rcases List.mem_append.mp hz with hz | hz
        · exact hold z hz
        · rw [List.mem_singleton.mp hz]
          rw [List.append_cons, List.map_append, List.mem_append] at hy
          rcases hy with hy | hy
          · exact hy
          · obtain ⟨w, hw, hwy⟩ := List.mem_map.mp hy
            exact hwy ▸ hold w hw
      · rw [if_neg hy]
        refine ⟨xs, y, [], rfl, by simp, ?_, fun z hz => by cases hz⟩
        rwa [mem_keys_firsts] at hy

/-! ## References -/

/-- The row shows a record of this identity in the segment. -/
def Segment.ShowsKey (seg : Segment) (row : Row) (key : String) : Prop :=
  ∃ r, seg.decode? row = some (r, key)

/-- What a single reference holds after the rows of its record, where it held what it holds in
`base` before them. -/
structure ReferenceFrom (seg : Segment) (rows : List Row) (property : String)
    (base record : Record) : Prop where
  unset : (∀ row ∈ rows, ¬ seg.HasKey row) →
    record.reference? property = base.reference? property
  /-- The record comes from the last row that shows a new identity. -/
  newest : (∃ row ∈ rows, seg.HasKey row) → ∃ before row after r key,
    rows = before ++ row :: after ∧ seg.decode? row = some (r, key) ∧
    (∀ earlier ∈ before, ¬ seg.ShowsKey earlier key) ∧
    (∀ later ∈ after, ∀ key', seg.ShowsKey later key' →
      ∃ known ∈ before ++ [row], seg.ShowsKey known key') ∧
    record.reference? property = some r
  /-- It is the record of the first row with a key just if all rows show that identity. -/
  first_iff : ∀ row r key, rows.find? seg.isPresent = some row →
    seg.decode? row = some (r, key) →
    (record.reference? property = some r ↔
      ∀ row' ∈ rows, ∀ key', seg.ShowsKey row' key' → key' = key)

section

variable {seg : Segment} {rows : List Row} {property : String} {base record : Record}

/-- The rows in which something is found, around one of them. -/
theorem exists_row_of_filterMap {f : Row → Option (Record × String)}
    {before after : List (Record × String)} {x : Record × String}
    (h : rows.filterMap f = before ++ x :: after) :
    ∃ rowsBefore row rowsAfter, rows = rowsBefore ++ row :: rowsAfter ∧
      rowsBefore.filterMap f = before ∧ f row = some x ∧ rowsAfter.filterMap f = after := by
  obtain ⟨front, back, rfl, hfront, hback⟩ := List.filterMap_eq_append_iff.mp h
  obtain ⟨skipped, row, rest, rfl, hskipped, hrow, hrest⟩ := List.filterMap_eq_cons_iff.mp hback
  refine ⟨front ++ skipped, row, rest, by simp, ?_, hrow, hrest⟩
  rw [List.filterMap_append, hfront, List.filterMap_eq_nil_iff.mpr hskipped, List.append_nil]

theorem Segment.mem_keys_iff {key : String} :
    key ∈ (rows.filterMap seg.decode?).map (·.2) ↔ ∃ row ∈ rows, seg.ShowsKey row key := by
  constructor
  · intro h
    obtain ⟨x, hx, rfl⟩ := List.mem_map.mp h
    obtain ⟨row, hrow, hdecode⟩ := List.mem_filterMap.mp hx
    exact ⟨row, hrow, x.1, hdecode⟩
  · rintro ⟨row, hrow, r, hdecode⟩
    exact List.mem_map.mpr ⟨(r, key), List.mem_filterMap.mpr ⟨row, hrow, hdecode⟩, rfl⟩

theorem Segment.isPresent_of_showsKey {row : Row} {key : String} (h : seg.ShowsKey row key) :
    seg.isPresent row = true := by
  obtain ⟨r, hr⟩ := h
  cases hpresent : seg.isPresent row with
  | true => rfl
  | false =>
      rw [decode?_of_not_present hpresent] at hr
      cases hr

/-- If the last row of a new identity shows that of the first row with a key, it is this row. -/
theorem eq_of_find?_of_newest {before after : List Row} {row last : Row} {key : String}
    (hfirst : (before ++ last :: after).find? seg.isPresent = some row)
    (hrow : seg.ShowsKey row key) (hlast : seg.ShowsKey last key)
    (hnew : ∀ earlier ∈ before, ¬ seg.ShowsKey earlier key) :
    row = last ∧ ∀ earlier ∈ before, ∀ key', ¬ seg.ShowsKey earlier key' := by
  rw [List.find?_append] at hfirst
  cases hbefore : before.find? seg.isPresent with
  | some earlier =>
      rw [hbefore] at hfirst
      cases hfirst
      exact absurd hrow (hnew row (List.mem_of_find?_eq_some hbefore))
  | none =>
      have present := Segment.isPresent_of_showsKey hlast
      rw [hbefore, Option.none_or, List.find?_cons_of_pos present] at hfirst
      refine ⟨(Option.some.inj hfirst).symm, fun earlier hearlier key' hshows => ?_⟩
      exact List.find?_eq_none.mp hbefore earlier hearlier (Segment.isPresent_of_showsKey hshows)

/-- A slot that ends with the last record of a new identity. -/
theorem ReferenceFrom.of_getLast?
    (hkey : ∀ row ∈ rows, seg.HasKey row → ∃ x, seg.decode? row = some x)
    (hunset : rows.filterMap seg.decode? = [] →
      record.reference? property = base.reference? property)
    (hset : ∀ x, (firsts (rows.filterMap seg.decode?)).getLast? = some x →
      record.reference? property = some x.1) :
    ReferenceFrom seg rows property base record := by
  have newest : (∃ row ∈ rows, seg.HasKey row) → ∃ before row after r key,
      rows = before ++ row :: after ∧ seg.decode? row = some (r, key) ∧
      (∀ earlier ∈ before, ¬ seg.ShowsKey earlier key) ∧
      (∀ later ∈ after, ∀ key', seg.ShowsKey later key' →
        ∃ known ∈ before ++ [row], seg.ShowsKey known key') ∧
      record.reference? property = some r := by
    rintro ⟨present, hpresent, haskey⟩
    obtain ⟨shown, hshown⟩ := hkey present hpresent haskey
    have nonempty : rows.filterMap seg.decode? ≠ [] :=
      List.ne_nil_of_mem (List.mem_filterMap.mpr ⟨present, hpresent, hshown⟩)
    obtain ⟨before, x, after, hsplit, hlast, hnew, hold⟩ := exists_getLast?_firsts nonempty
    obtain ⟨rowsBefore, row, rowsAfter, hrows, rfl, hrow, rfl⟩ := exists_row_of_filterMap hsplit
    refine ⟨rowsBefore, row, rowsAfter, x.1, x.2, hrows, hrow, fun earlier hearlier hshows => ?_,
      fun later hlater key' hshows => ?_, hset x hlast⟩
    · exact hnew (Segment.mem_keys_iff.mpr ⟨earlier, hearlier, hshows⟩)
    · obtain ⟨r', hr'⟩ := hshows
      have known := hold (r', key') (List.mem_filterMap.mpr ⟨later, hlater, hr'⟩)
      have shown_by : (rowsBefore ++ [row]).filterMap seg.decode? =
          rowsBefore.filterMap seg.decode? ++ [x] := by
        rw [List.filterMap_append, List.filterMap_cons_some hrow, List.filterMap_nil]
      rwa [← shown_by, Segment.mem_keys_iff] at known
  refine ⟨fun without => hunset ?_, newest, fun row r key hfirst hdecode => ?_⟩
  · rw [List.filterMap_eq_nil_iff]
    intro row hrow
    cases hdecode : seg.decode? row with
    | none => rfl
    | some x =>
        have present := Segment.isPresent_of_showsKey ⟨x.1, hdecode⟩
        exact absurd (Segment.isPresent_iff.mp present) (without row hrow)
  · have present : seg.isPresent row = true := List.find?_some hfirst
    obtain ⟨before, last, after, r', key', rfl, hlast, hnew, hold, hreference⟩ :=
      newest ⟨row, List.mem_of_find?_eq_some hfirst, Segment.isPresent_iff.mp present⟩
    have same_row : key' = key →
        row = last ∧ ∀ earlier ∈ before, ∀ key', ¬ seg.ShowsKey earlier key' := by
      rintro rfl
      exact eq_of_find?_of_newest hfirst ⟨r, hdecode⟩ ⟨r', hlast⟩ hnew
    rw [hreference, Option.some_inj]
    constructor
    · rintro rfl
      -- the record tells its identity
      have same_key : key' = key := Except.ok.inj
        ((Segment.decode?_eq_some hlast).2.symm.trans (Segment.decode?_eq_some hdecode).2)
      obtain ⟨rfl, nothing⟩ := same_row same_key
      have known : ∀ row' ∈ before ++ [row], ∀ key'', seg.ShowsKey row' key'' → key'' = key := by
        intro row' hrow' key'' hshows
        rcases List.mem_append.mp hrow' with hrow' | hrow'
        · exact absurd hshows (nothing row' hrow' key'')
        · obtain ⟨r'', hr''⟩ := hshows
          rw [List.mem_singleton.mp hrow', hdecode] at hr''
          exact congrArg Prod.snd (Option.some.inj hr'').symm
      intro row' hrow' key'' hshows
      rw [List.append_cons, List.mem_append] at hrow'
      rcases hrow' with hrow' | hrow'
      · exact known row' hrow' key'' hshows
      · obtain ⟨earlier, hearlier, hshows'⟩ := hold row' hrow' key'' hshows
        exact known earlier hearlier key'' hshows'
    · intro agree
      have same_key : key' = key :=
        agree last (List.mem_append_right _ List.mem_cons_self) key' ⟨r', hlast⟩
      obtain ⟨rfl, -⟩ := same_row same_key
      rw [hdecode] at hlast
      exact congrArg Prod.fst (Option.some.inj hlast).symm

end

section

variable {rs : List RelationDef} {root : Segment} {related : List Segment} {rows : List Row}

/-- A single reference of a root that has been filled with what its rows show. -/
theorem Filled.referenceFrom (hderived : root.map.Derived)
    (hrs : ∀ r ∈ rs, r ∈ root.map.relations)
    (hrelations : List.Forall₂ (fun seg r => seg.relation = some r) related rs) {base : Record}
    (hslots : base.slots = root.map.prototype.slots) {shown : Nat → List (Record × String)}
    {g : Gathered} (h : Filled rs base shown g)
    (hshown : ∀ i seg, related[i]? = some seg → shown i = rows.filterMap seg.decode?)
    (hkey : ∀ row ∈ rows, ∀ seg ∈ related, seg.HasKey row → ∃ x, seg.decode? row = some x)
    {seg : Segment} (hseg : seg ∈ related) {r : RelationDef} (hr : seg.relation = some r)
    (hkind : r.kind = .manyToOne) : ReferenceFrom seg rows r.property base g.root := by
  obtain ⟨i, hi, hri⟩ := exists_place_of_relation hrelations hseg hr
  obtain ⟨s, hs, hskind, hslot⟩ := h.exists_slot hderived hrs hslots hri
  rw [hkind, hshown i seg hi] at hslot
  rw [hkind] at hskind
  refine .of_getLast? (fun row hrow => hkey row hrow seg hseg) (fun nothing => ?_) fun x hlast => ?_
  · simp only [Record.reference?, hslot, hs, nothing]
    rfl
  · simp [Record.reference?, hslot, hskind, RelationKind.filled, RelationKind.latest, hlast]

end

/-- **Single references in any rows.** Take any select of keyed entities and any rows that its
result is put together from without an error. A single reference of a record is as in a new record
if no row of the record has a key for it. Otherwise it is what the last row shows that shows an
identity for the first time among the rows of the record; so it is what the first row with a key
shows if and only if all rows of the record show the same identity. -/
theorem references_of_select {m : Model} {type : String} {map : EntityMap} {p : Predicate}
    {includes : List String} {options : SelectOptions} {st : SelectStatement} {rows : List Row}
    {records : List Record} (hmap : m.entityMap type = .ok map)
    (hselect : m.select map p includes options = .ok st)
    (keyed : ∀ seg ∈ st.segments, seg.map.keys.isEmpty = false)
    (hok : m.graphs st.segments rows = .ok records) :
    ∃ root related, st.segments = root :: related ∧ root.map = map ∧
      List.Forall₂ (fun name seg => ∃ r, map.relation name = .ok r ∧ seg.relation = some r ∧
        m.entityMap r.target = .ok seg.map) includes related ∧
      (∀ row ∈ rows, root.HasKey row → ∀ seg ∈ related, seg.HasKey row →
        ∃ x, seg.decode? row = some x) ∧
      List.Forall₂ (fun x record => ∀ seg ∈ related, ∀ r, seg.relation = some r →
          r.kind = .manyToOne →
          ReferenceFrom seg (root.rowsOf rows x.2) r.property x.1 record)
        (firsts (rows.filterMap root.decode?)) records := by
  obtain ⟨root, related, rs, hsegments, rfl, hincluded, hrelations, hrs, hnodup⟩ :=
    related_of_select hselect
  rw [hsegments] at keyed hok
  obtain ⟨ws, gs, hws, hgathers, rfl⟩ := gathersFrom_of_graphs hnodup hrelations hok
  have complete : ∀ row ∈ rows, root.HasKey row → ∀ seg ∈ related, seg.HasKey row →
      ∃ x, seg.decode? row = some x := fun row hrow hroot seg hseg =>
    exists_decode? keyed hws hrow hroot (List.mem_cons_of_mem root hseg)
  refine ⟨root, related, hsegments, rfl, hincluded, complete, ?_⟩
  rw [List.forall₂_map_right_iff]
  unfold GathersFrom at hgathers
  rw [rootsOf_eq (keyed root List.mem_cons_self) hws] at hgathers
  refine forall₂_imp_of_mem hgathers fun x hx g => ?_
  rintro ⟨-, hfilled⟩ seg hseg r hr hkind
  obtain ⟨row, -, hdecode⟩ := List.mem_filterMap.mp (mem_of_mem_firsts hx)
  have slots := Segment.slots_of_readRow (Segment.decode?_eq_some hdecode).1
  refine hfilled.referenceFrom (Model.derived_of_entityMap hmap) hrs hrelations slots
    (fun i seg hseg => childrenOf_eq keyed hws hseg x.2) (fun row' hrow' seg hseg => ?_)
    hseg hr hkind
  obtain ⟨hmem, r', hr'⟩ := Segment.mem_rowsOf.mp hrow'
  have present := Segment.isPresent_of_showsKey ⟨r', hr'⟩
  exact complete row' hmem (Segment.isPresent_iff.mp present) seg hseg

namespace Sample

/-- Main records that refer to a peer by its code, which is not unique. -/
def sharedCodes : Model := model
  (some {
    table := "mains"
    columns := [generatedColumn "id", column "code"]
    relations := [manyToOne "peer" "Peer" "code" "code"] })
  (some { table := "peers", columns := [generatedColumn "id", column "code"] })

/-- A row with the main record 1 and the peer of this number. -/
def sharedRow (peer : Int64) : Row :=
  ⟨[], [.null, .int64 (some 1), .varchar (some "A"), .null, .int64 (some peer),
    .varchar (some "A")]⟩

/-- The main record is shown with peer 10, then with peer 11 and with peer 10 again; it ends with
peer 11. -/
theorem references_of_select_sharedCodes : ∃ map st records,
    sharedCodes.entityMap "Main" = .ok map ∧
    sharedCodes.select map (.constant true) ["peer"] {} = .ok st ∧
    (∀ seg ∈ st.segments, seg.map.keys.isEmpty = false) ∧
    sharedCodes.graphs st.segments [sharedRow 10, sharedRow 11, sharedRow 10] = .ok records ∧
    (records.map fun r => (r.reference? "peer").bind (·.field? "id")) = [some (.int32 (some 11))] ∧
    ∃ root related, st.segments = root :: related ∧
      List.Forall₂ (fun x record => ∀ seg ∈ related, ∀ r, seg.relation = some r →
          r.kind = .manyToOne → ReferenceFrom seg
            (root.rowsOf [sharedRow 10, sharedRow 11, sharedRow 10] x.2) r.property x.1 record)
        (firsts ([sharedRow 10, sharedRow 11, sharedRow 10].filterMap root.decode?)) records := by
  obtain ⟨map, st, records, hmap, hst, keyed, hrecords, hpeers⟩ : ∃ map st records,
      sharedCodes.entityMap "Main" = .ok map ∧
      sharedCodes.select map (.constant true) ["peer"] {} = .ok st ∧
      (∀ seg ∈ st.segments, seg.map.keys.isEmpty = false) ∧
      sharedCodes.graphs st.segments [sharedRow 10, sharedRow 11, sharedRow 10] = .ok records ∧
      (records.map fun r => (r.reference? "peer").bind (·.field? "id")) =
        [some (.int32 (some 11))] := by
    refine ⟨_, _, _, rfl, rfl, fun seg hseg => ?_, rfl, rfl⟩
    rcases List.mem_cons.mp hseg with rfl | hseg
    · rfl
    · rw [List.mem_singleton.mp hseg]
      rfl
  obtain ⟨root, related, hsegments, -, -, -, h⟩ := references_of_select hmap hst keyed hrecords
  exact ⟨map, st, records, hmap, hst, keyed, hrecords, hpeers, root, related, hsegments, h⟩

/-- The first row of the main record with a key of a peer shows peer 10, but the reference is not
to this record. -/
theorem graphs_of_two_peers : ∃ map st root seg record shown key,
    sharedCodes.entityMap "Main" = .ok map ∧
    sharedCodes.select map (.constant true) ["peer"] {} = .ok st ∧
    st.segments = [root, seg] ∧ (∀ seg ∈ st.segments, seg.map.keys.isEmpty = false) ∧
    sharedCodes.graphs st.segments [sharedRow 10, sharedRow 11] = .ok [record] ∧
    (root.rowsOf [sharedRow 10, sharedRow 11] "1").find? seg.isPresent = some (sharedRow 10) ∧
    seg.decode? (sharedRow 10) = some (shown, key) ∧
    record.reference? "peer" ≠ some shown := by
  refine ⟨_, _, _, _, _, _, _, rfl, rfl, rfl, fun seg hseg => ?_, rfl, ?_, rfl, fun same => ?_⟩
  · rcases List.mem_cons.mp hseg with rfl | hseg
    · rfl
    · rw [List.mem_singleton.mp hseg]
      rfl
  · rfl
  · exact absurd (congrArg (·.bind (·.field? "id")) same) (by decide)

end Sample

end GraphStore
