import GraphStore.Proofs.Statement.Select

/-!
# Selects that were built

What is known of a select when `Model.select` has given one, whatever it was asked for. There is a
segment for the entity and one for every relation that is included, each of another property, and
a segment lists the columns of its entity (`segments_of_select`); and the filter leaves the rows on
which the predicate is true (`admits_of_select`).
-/

set_option autoImplicit false

namespace GraphStore

open Fragment
open Sqlite (Truth)

/-- The segment shows the columns of its entity that can be selected. -/
def Segment.ShowsColumns (seg : Segment) : Prop :=
  seg.properties = seg.map.shownColumns.map (·.property)

/-- The segment shows the target of the relation. -/
structure Model.ShowsTarget (m : Model) (seg : Segment) (r : RelationDef) : Prop where
  relation_eq : seg.relation = some r
  target_eq : m.target r = .ok seg.map
  columns : seg.ShowsColumns

/-! ## Segments -/

/-- The relations of these names have been joined, each to a segment of its own. -/
structure SelectDraft.Joined (m : Model) (map : EntityMap) (root : Segment) (names : List String)
    (rs : List RelationDef) (related : List Segment) (d : SelectDraft) : Prop where
  named : List.Forall₂ (fun name r => map.relation name = .ok r) names rs
  shown : List.Forall₂ m.ShowsTarget related rs
  segments_eq : d.segments = root :: related
  nodup : (rs.map (·.property)).Nodup
  alias_isSome : ∀ p, (d.aliases.lookup p).isSome = true ↔ p ∈ rs.map (·.property)

namespace SelectDraft

variable {m : Model} {map : EntityMap} {label : String} {includeDeleted : Bool}
  {names more : List String} {name : String} {rs : List RelationDef} {root : Segment}
  {related : List Segment} {d d' : SelectDraft}

/-- What joining one more relation adds to a draft. -/
theorem exists_of_includeRelation
    (h : m.includeRelation map label includeDeleted d name = .ok d') :
    ∃ r seg label', map.relation name = .ok r ∧ m.ShowsTarget seg r ∧
      (d.aliases.lookup r.property).isSome = false ∧ d'.segments = d.segments ++ [seg] ∧
      d'.aliases = (r.property, label') :: d.aliases := by
  obtain ⟨x, hx, hr, hnew, rfl⟩ := exists_included_of_includeRelation h
  refine ⟨x.relation, _, _, ?found, ⟨?relation, hx.target_eq, ?columns⟩, hnew, rfl, rfl⟩
  case found =>
    rw [EntityMap.relation, hr]
    rfl
  case relation => rfl
  case columns => rfl

theorem Joined.includeRelation (h : d.Joined m map root names rs related)
    (hd : m.includeRelation map label includeDeleted d name = .ok d') :
    ∃ r seg, d'.Joined m map root (names ++ [name]) (rs ++ [r]) (related ++ [seg]) := by
  obtain ⟨r, seg, label', hr, hseg, hnew, hsegments, haliases⟩ := exists_of_includeRelation hd
  have fresh : r.property ∉ rs.map (·.property) := by
    rw [← h.alias_isSome, hnew]
    exact Bool.false_ne_true
  refine ⟨r, seg, ?_, ?_, ?_, ?_, fun p => ?_⟩
  · exact List.rel_append h.named (.cons hr .nil)
  · exact List.rel_append h.shown (.cons hseg .nil)
  · rw [hsegments, h.segments_eq]
    rfl
  · rw [List.map_append, List.map_singleton]
    exact h.nodup.append (List.nodup_singleton _) (List.disjoint_singleton.mpr fresh)
  · rw [haliases, List.lookup_cons, List.map_append, List.mem_append, ← h.alias_isSome,
      List.map_singleton, List.mem_singleton]
    cases hp : p == r.property with
    | true => simp [beq_iff_eq.mp hp]
    | false => simp [beq_eq_false_iff_ne.mp hp]

theorem Joined.includeRelations (h : d.Joined m map root names rs related)
    (hd : more.foldlM (m.includeRelation map label includeDeleted) d = .ok d') :
    ∃ rs' related', d'.Joined m map root (names ++ more) rs' related' := by
  induction more generalizing d names rs related with
  | nil =>
      cases hd
      exact ⟨rs, related, by rwa [List.append_nil]⟩
  | cons name more ih =>
      rw [List.foldlM_cons] at hd
      obtain ⟨d₁, hd₁, hd⟩ := ok_of_bind hd
      obtain ⟨r, seg, h₁⟩ := h.includeRelation hd₁
      rw [List.append_cons]
      exact ih h₁ hd

end SelectDraft

section

variable {m : Model} {map : EntityMap} {p : Predicate} {includes : List String}
  {options : SelectOptions} {st : SelectStatement}

/-- The steps by which a select was built. -/
theorem steps_of_select (h : m.select map p includes options = .ok st) :
    ∃ d f context orderBy,
      includes.foldlM (m.includeRelation map map.table.name options.includeDeleted)
        (SelectDraft.addSegment { used := [map.table.name], context := { clause := .select } } none
          map map.table.name) = .ok d ∧
      m.selectFilter map map.table.name d p = .ok (f, context) ∧
      m.orderColumns map map.table.name d options.orderBy = .ok orderBy ∧
      st = d.statement map (filterOf map options.includeDeleted f context) orderBy
        options.limit := by
  obtain ⟨d, hd, h⟩ := ok_of_bind h
  obtain ⟨⟨f, context⟩, hf, h⟩ := ok_of_bind h
  obtain ⟨orderBy, horder, h⟩ := ok_of_bind h
  exact ⟨d, f, context, orderBy, hd, hf, horder, (Except.ok.inj h).symm⟩

/-- **The segments of a select.** The first is that of the entity, and the others are those of the
relations that are included, which are different. -/
theorem segments_of_select (h : m.select map p includes options = .ok st) :
    ∃ root related rs, st.segments = root :: related ∧ root.map = map ∧ root.ShowsColumns ∧
      List.Forall₂ (fun name r => map.relation name = .ok r) includes rs ∧
      List.Forall₂ m.ShowsTarget related rs ∧ (rs.map (·.property)).Nodup := by
  obtain ⟨d, -, -, -, hd, -, -, rfl⟩ := steps_of_select h
  have start : (SelectDraft.addSegment
      { used := [map.table.name], context := { clause := .select } } none map
        map.table.name).Joined m map
      { relation := none, map, label := map.table.name, start := 0
        properties := map.shownColumns.map (·.property) } [] [] [] :=
    ⟨.nil, .nil, rfl, List.nodup_nil, fun p => by simp [SelectDraft.addSegment]⟩
  obtain ⟨rs, related, hjoined⟩ := start.includeRelations hd
  exact ⟨_, related, rs, hjoined.segments_eq, rfl, rfl, hjoined.named,
    hjoined.shown, hjoined.nodup⟩

/-- The segments of a select, each next to the name and the relation it was included by. -/
theorem related_of_select (h : m.select map p includes options = .ok st) :
    ∃ root related rs, st.segments = root :: related ∧ root.map = map ∧
      List.Forall₂ (fun name seg => ∃ r, map.relation name = .ok r ∧ seg.relation = some r ∧
        m.entityMap r.target = .ok seg.map) includes related ∧
      List.Forall₂ (fun seg r => seg.relation = some r) related rs ∧
      (∀ r ∈ rs, r ∈ map.relations) ∧ (rs.map (·.property)).Nodup := by
  obtain ⟨root, related, rs, hsegments, hroot, -, hnamed, hshown, hnodup⟩ := segments_of_select h
  refine ⟨root, related, rs, hsegments, hroot, ?_, hshown.imp fun _ _ hseg => hseg.relation_eq,
    fun r hr => ?_, hnodup⟩
  · refine (forall₂_comp hnamed hshown.flip).imp fun name seg => ?_
    rintro ⟨r, hname, hseg⟩
    exact ⟨r, hname, hseg.relation_eq, hseg.target_eq⟩
  · obtain ⟨name, -, hname⟩ := exists_of_mem_forall₂ hnamed hr
    exact List.mem_of_find?_eq_some (ok_of_orFail hname)

/-- **The filter of a select.** It leaves the rows of the entity on which the predicate is true,
without those that are marked as deleted. -/
theorem admits_of_select (hp : p.OfProperties) (h : m.select map p includes options = .ok st)
    (s : Semantics) (cells : Valuation) :
    (st.filter.isEmpty || st.filter.holds s cells) =
      map.selects s p options.includeDeleted fun name => cells ⟨none, st.label, name⟩ := by
  obtain ⟨d, f, context, -, -, hf, -, rfl⟩ := steps_of_select h
  exact admits_of_selectFilter hp hf options.includeDeleted s cells

end

end GraphStore
