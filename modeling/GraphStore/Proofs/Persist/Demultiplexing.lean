import GraphStore.Proofs.Model.Identity
import GraphStore.Proofs.Persist.Gathering

/-!
# What is gathered from all rows

If the rows of a select are put together without an error, each of them has been read, and what has
been gathered is what they show (`gathersFrom_of_graphs`). Conversely, rows that can be read are put
together if related records fit the slots of the roots (`exists_graphs`).
-/

set_option autoImplicit false

namespace GraphStore

/-- With keys, the identity is the text of the key. -/
theorem EntityMap.identity_of_keyed {map : EntityMap} (h : map.keys.isEmpty = false) (r : Record)
    (n : Nat) : map.identity r n = map.keyString r := by
  rw [identity, h]
  rfl

/-! ## Rows that have been read -/

section

variable {m : Model} {rs : List RelationDef} {root seg : Segment} {related : List Segment}
  {x : Row × Nat} {rows : List Row} {n i : Nat} {g g' : Gathered} {gs gs' : List Gathered}
  {r : RelationDef}

theorem exists_showsChild (hrelation : seg.relation = some r)
    (hok : m.attachSegment x.1 x.2 g i seg = .ok g') : ∃ first, seg.ShowsChild x first := by
  unfold Model.attachSegment at hok
  simp only [hrelation] at hok
  obtain ⟨child?, hread, hok⟩ := ok_of_bind hok
  cases child? with
  | none => exact ⟨none, hread⟩
  | some child =>
      obtain ⟨key, hkey, -⟩ := ok_of_bind hok
      exact ⟨some (child, key), hread, hkey⟩

theorem exists_shownChildren {segs : List Segment}
    (hrelations : List.Forall₂ (fun seg r => seg.relation = some r) segs rs)
    (hok : m.attachSegments x.1 x.2 i segs g = .ok g') :
    ∃ children, List.Forall₂ (Segment.ShowsChild x) segs children := by
  induction hrelations generalizing i g with
  | nil => exact ⟨[], .nil⟩
  | cons hrelation hrelations ih =>
      obtain ⟨g₁, hg₁, hok⟩ := ok_of_bind hok
      obtain ⟨first, hfirst⟩ := exists_showsChild hrelation hg₁
      obtain ⟨rest, hrest⟩ := ih hok
      exact ⟨first :: rest, .cons hfirst hrest⟩

/-- A change of the roots changes the one of this identity. -/
theorem exists_of_updateRoot {change : Gathered → Except Error Gathered} {key : String}
    (hkey : key ∈ gs.map (·.key)) (h : updateRoot change key gs = .ok gs') :
    ∃ g g', change g = .ok g' := by
  induction gs generalizing gs' with
  | nil => cases hkey
  | cons g gs ih =>
      unfold updateRoot at h
      split at h
      next =>
        obtain ⟨g', hg', -⟩ := ok_of_map h
        exact ⟨g, g', hg'⟩
      next hother =>
        obtain ⟨rest, hrest, -⟩ := ok_of_map h
        rw [List.map_cons, List.mem_cons] at hkey
        exact ih (hkey.resolve_left (Ne.symm hother)) hrest

theorem mem_keys_withRoot (gs : List Gathered) (record : Record) (key : String) :
    key ∈ (withRoot gs record key).map (·.key) := by
  unfold withRoot
  split
  next hany => simpa using hany
  next => simp

/-- A row that has been gathered shows what all its segments show. -/
theorem exists_shows_of_gatherRow
    (hrelations : List.Forall₂ (fun seg r => seg.relation = some r) related rs)
    (hpresent : root.isPresent x.1 = true)
    (hok : m.gatherRow root related gs x.1 x.2 = .ok gs') : ∃ w, Shows root related x w := by
  unfold Model.gatherRow at hok
  obtain ⟨record?, hread, hok⟩ := ok_of_bind hok
  cases record? with
  | none =>
      rw [Segment.readRow_eq_none, hpresent] at hread
      cases hread
  | some record =>
      obtain ⟨key, hkey, hok⟩ := ok_of_bind hok
      obtain ⟨g, g', hattached⟩ := exists_of_updateRoot (mem_keys_withRoot gs record key) hok
      obtain ⟨children, hchildren⟩ := exists_shownChildren hrelations hattached
      exact ⟨⟨record, key, children⟩, ⟨hread, hkey⟩, hchildren⟩

theorem exists_shows_of_gatherRows
    (hrelations : List.Forall₂ (fun seg r => seg.relation = some r) related rs)
    (hok : m.gatherRows root related n rows gs = .ok gs') :
    ∃ ws, List.Forall₂ (Shows root related) (root.presentRows n rows) ws := by
  induction rows generalizing gs n with
  | nil => exact ⟨[], .nil⟩
  | cons row rows ih =>
      obtain ⟨gs₁, hgs₁, hrest⟩ := ok_of_bind hok
      obtain ⟨ws, hws⟩ := ih hrest
      cases hpresent : root.isPresent row with
      | true =>
          obtain ⟨w, hw⟩ := exists_shows_of_gatherRow (x := (row, n)) hrelations hpresent hgs₁
          refine ⟨w :: ws, ?_⟩
          rw [Segment.presentRows_cons_of_present hpresent]
          exact .cons hw hws
      | false =>
          refine ⟨ws, ?_⟩
          rwa [Segment.presentRows_cons_of_absent hpresent]

/-- What is gathered from all rows. -/
theorem gathersFrom_of_graphs {records : List Record} (hnodup : (rs.map (·.property)).Nodup)
    (hrelations : List.Forall₂ (fun seg r => seg.relation = some r) related rs)
    (hok : m.graphs (root :: related) rows = .ok records) :
    ∃ ws gs, List.Forall₂ (Shows root related) (root.presentRows 0 rows) ws ∧
      GathersFrom rs (rootsOf ws) ws gs ∧ records = gs.map (·.root) := by
  obtain ⟨gs, hgs, rfl⟩ := ok_of_map hok
  obtain ⟨ws, hws⟩ := exists_shows_of_gatherRows hrelations hgs
  have start : GathersFrom rs (rootsOf []) [] [] := .nil
  exact ⟨ws, gs, hws, start.gatherRows hnodup hrelations hws hgs, rfl⟩

end

/-! ## Rows that can be gathered -/

/-- The record has a slot for the relation. -/
def Record.HasRoom (record : Record) (r : RelationDef) : Prop :=
  ∃ s, record.slot? r.property = some s ∧ s.target = r.target

/-- What the row shows for relations fits the slots of its root. -/
structure Shown.FitsSlots (rs : List RelationDef) (w : Shown) : Prop where
  room : ∀ r ∈ rs, w.root.HasRoom r
  type_eq : ∀ i r child key, rs[i]? = some r → w.Child i child key → child.type = r.target

section

variable {m : Model} {rs : List RelationDef} {base : Record} {ws : List Shown} {w : Shown}
  {shown : Nat → List (Record × String)} {g : Gathered} {gs : List Gathered} {root : Segment}
  {related : List Segment} {x : Row × Nat} {rows : List Row} {n i : Nat}

/-- A record of the right type is attached to a root that has room for it. -/
theorem Filled.exists_attachSegment (h : Filled rs base shown g) {r : RelationDef}
    (hroom : base.HasRoom r) (hr : rs[i]? = some r) {seg : Segment}
    (hrelation : seg.relation = some r) {first : Option (Record × String)}
    (hfirst : seg.ShowsChild x first)
    (htype : ∀ child key, first = some (child, key) → child.type = r.target) (m : Model) :
    ∃ g', m.attachSegment x.1 x.2 g i seg = .ok g' := by
  rw [m.attachSegment_of_showsChild hrelation hfirst]
  cases first with
  | none => exact ⟨g, rfl⟩
  | some c =>
      obtain ⟨s, hs, htarget⟩ := hroom
      have hslot := h.slot i r hr
      rw [hs, Option.map_some] at hslot
      have hattach := (Model.attach_eq_ok (m := m)).mpr
        ⟨_, hslot, (htype c.1 c.2 rfl).trans htarget.symm, rfl⟩
      simp only [hattach]
      split
      · exact ⟨g, rfl⟩
      · exact ⟨_, rfl⟩

theorem Filled.exists_attachSegments {segs : List Segment} {rs' : List RelationDef}
    {children : List (Option (Record × String))} (h : Filled rs base shown g)
    (hnodup : (rs.map (·.property)).Nodup) (hroom : ∀ r ∈ rs, base.HasRoom r)
    (hrelations : List.Forall₂ (fun seg r => seg.relation = some r) segs rs')
    (hrs : rs.drop i = rs') (hchildren : List.Forall₂ (Segment.ShowsChild x) segs children)
    (htype : ∀ (j : Nat) r child key, rs'[j]? = some r → children[j]? = some (some (child, key)) →
      child.type = r.target) (m : Model) :
    ∃ g', m.attachSegments x.1 x.2 i segs g = .ok g' := by
  induction hrelations generalizing i children shown g with
  | nil => exact ⟨g, rfl⟩
  | @cons seg r segs rs' hrelation hrelations ih =>
      cases hchildren with
      | @cons _ first _ rest hfirst hrest =>
          have hr : rs[i]? = some r := by
            rw [← Nat.add_zero i, ← List.getElem?_drop, hrs]
            rfl
          obtain ⟨g₁, hg₁⟩ := h.exists_attachSegment (hroom r (List.mem_of_getElem? hr)) hr
            hrelation hfirst (fun child key hc => htype 0 r child key rfl (congrArg some hc)) m
          obtain ⟨-, h₁⟩ := h.attachSegment hnodup hr hrelation hfirst hg₁
          obtain ⟨g₂, hg₂⟩ := ih h₁ (by rw [← List.tail_drop, hrs]; rfl) hrest
            fun j r child key hr hc => htype (j + 1) r child key hr hc
          exact ⟨g₂, by rw [Model.attachSegments, hg₁, ok_bind, hg₂]⟩

theorem exists_updateRoot {change : Gathered → Except Error Gathered} {key : String}
    (h : ∀ g ∈ gs, g.key = key → ∃ g', change g = .ok g') :
    ∃ gs', updateRoot change key gs = .ok gs' := by
  induction gs with
  | nil => exact ⟨[], rfl⟩
  | cons g gs ih =>
      unfold updateRoot
      split
      next hkey =>
        obtain ⟨g', hg'⟩ := h g List.mem_cons_self hkey
        exact ⟨g' :: gs, by rw [hg']; rfl⟩
      next =>
        obtain ⟨gs', hgs'⟩ := ih fun k hk => h k (List.mem_cons_of_mem g hk)
        exact ⟨g :: gs', by rw [hgs']; rfl⟩

namespace GathersFrom

/-- One more row can be gathered. -/
theorem exists_gatherRow (h : GathersFrom rs (rootsOf ws) ws gs)
    (hnodup : (rs.map (·.property)).Nodup)
    (hrelations : List.Forall₂ (fun seg r => seg.relation = some r) related rs)
    (hshows : Shows root related x w) (hfits : ∀ v ∈ ws ++ [w], v.FitsSlots rs) (m : Model) :
    ∃ gs', m.gatherRow root related gs x.1 x.2 = .ok gs' := by
  rw [m.gatherRow_of_shows hshows.root]
  refine exists_updateRoot fun g hg _ => ?_
  obtain ⟨c, hc, -, hfilled⟩ := exists_of_mem_forall₂ (h.withRoot w.root w.key) hg
  -- the root is that of some row, so that it has room for what this row shows
  have mem_rootsOf : c ∈ rootsOf (ws ++ [w]) := by
    rw [rootsOf, List.map_append]
    exact mem_of_mem_firsts hc
  obtain ⟨v, hv, rfl⟩ := List.mem_map.mp mem_rootsOf
  exact hfilled.exists_attachSegments hnodup (hfits v hv).room hrelations List.drop_zero
    hshows.children (hfits w (by simp)).type_eq m

/-- Any number of rows more can be gathered. -/
theorem exists_gatherRows {more : List Shown} (h : GathersFrom rs (rootsOf ws) ws gs)
    (hnodup : (rs.map (·.property)).Nodup)
    (hrelations : List.Forall₂ (fun seg r => seg.relation = some r) related rs)
    (hshows : List.Forall₂ (Shows root related) (root.presentRows n rows) more)
    (hfits : ∀ w ∈ ws ++ more, w.FitsSlots rs) (m : Model) :
    ∃ gs', m.gatherRows root related n rows gs = .ok gs' := by
  induction rows generalizing ws gs n more with
  | nil => exact ⟨gs, rfl⟩
  | cons row rows ih =>
      rw [Model.gatherRows]
      cases hpresent : root.isPresent row with
      | true =>
          rw [Segment.presentRows_cons_of_present hpresent] at hshows
          cases hshows with
          | @cons _ w _ more hw hmore =>
              rw [List.append_cons] at hfits
              obtain ⟨gs₁, hgs₁⟩ := h.exists_gatherRow hnodup hrelations hw
                (fun v hv => hfits v (List.mem_append_left _ hv)) m
              rw [hgs₁, ok_bind]
              exact ih (h.gatherRow hnodup hrelations hw hgs₁) hmore hfits
      | false =>
          rw [Segment.presentRows_cons_of_absent hpresent] at hshows
          rw [m.gatherRow_of_absent hpresent, ok_bind]
          exact ih h hshows hfits

end GathersFrom

/-- Rows that can be read are put together if what they show fits. -/
theorem exists_graphs (hnodup : (rs.map (·.property)).Nodup)
    (hrelations : List.Forall₂ (fun seg r => seg.relation = some r) related rs)
    (hshows : List.Forall₂ (Shows root related) (root.presentRows 0 rows) ws)
    (hfits : ∀ w ∈ ws, w.FitsSlots rs) (m : Model) :
    ∃ gs, m.graphs (root :: related) rows = .ok (gs.map (·.root)) ∧
      GathersFrom rs (rootsOf ws) ws gs := by
  have start : GathersFrom rs (rootsOf []) [] [] := .nil
  obtain ⟨gs, hgs⟩ := start.exists_gatherRows hnodup hrelations hshows hfits m
  refine ⟨gs, ?_, start.gatherRows hnodup hrelations hshows hgs⟩
  rw [Model.graphs, hgs]
  rfl

/-- Rows that show a root whatever their number is. -/
theorem forall₂_presentRows
    (h : List.Forall₂ (fun row w => ∀ n, Shows root related (row, n) w) rows ws) (n : Nat) :
    List.Forall₂ (Shows root related) (root.presentRows n rows) ws := by
  induction h generalizing n with
  | nil => exact .nil
  | cons hw _ ih =>
      rw [Segment.presentRows_cons_of_present (Segment.isPresent_of_readRow (hw n).root.1)]
      exact .cons (hw n) (ih (n + 1))

end

end GraphStore
