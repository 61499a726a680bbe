import GraphStore.Proofs.Persist.Demultiplexing
import GraphStore.Proofs.Statement.Select
import GraphStore.Sample.Tables

/-!
# Selected graphs

What a joined select returns once its rows have been put together: one graph for every row of the
entity that is selected, with the records that belong to it in the slots of the relations included,
each of them once.

Several collections in one select multiply the rows. A joined row is described by what stands under
each alias (`JoinsRow`): the row of the entity and, for every relation, a row that was found or
nothing. Every combination occurs, so that nothing is lost, and a record is gathered by its key, so
that nothing is repeated.
-/

set_option autoImplicit false

namespace GraphStore

/-! ## Joined rows -/

/-- What the relation continues a row of the entity with. -/
def Inclusion.partners (s : Semantics) (tables : Tables) (includeDeleted : Bool) (t : TableRow)
    (y : Inclusion) : List (Option TableRow) :=
  JoinKind.left.partners (y.included.found s tables includeDeleted t)

/-- The joined row continues the row `t` of the entity. -/
structure JoinsRow (s : Semantics) (tables : Tables) (includeDeleted : Bool) (root : String)
    (ys : List Inclusion) (t : TableRow) (j : JoinedRow) : Prop where
  root_eq : j.lookup root = some (some t)
  related : ∀ y ∈ ys, ∃ o ∈ y.partners s tables includeDeleted t,
    j.lookup y.join.label = some o

section

variable {s : Semantics} {tables : Tables} {includeDeleted : Bool} {root : String}
  {columns : List SelectColumn} {ys : List Inclusion} {y : Inclusion} {t : TableRow}
  {j j' : JoinedRow} {o : Option TableRow}

/-- The row of the entity, as the cells under its alias. -/
theorem cells_of_lookup {label : String} (h : j.lookup label = some (some t)) :
    (fun name => j.cell ⟨none, label, name⟩) = t := by
  funext name
  exact JoinedRow.cell_of_lookup h none name

/-- The join finds the rows that belong to the row of the entity. -/
theorem Inclusion.Sound.found_eq (hy : y.Sound root includeDeleted columns)
    (hroot : j.lookup root = some (some t)) (hfresh : y.join.label ∉ j.map Prod.fst) :
    y.join.found s tables j = y.included.found s tables includeDeleted t := by
  unfold Join.found Included.found
  rw [hy.table_eq]
  refine List.filter_congr fun t' _ => ?_
  rw [hy.holds_on, cells_of_lookup (JoinedRow.lookup_append_of_some hroot _),
    cells_of_lookup (JoinedRow.lookup_concat hfresh)]

/-- What one more relation continues a row with. -/
theorem Inclusion.Sound.partners_eq (s : Semantics) (tables : Tables)
    (hy : y.Sound root includeDeleted columns)
    (hleft : y.included.relation.joinKind = .left) (hroot : j.lookup root = some (some t))
    (hfresh : y.join.label ∉ j.map Prod.fst) :
    y.join.kind.partners (y.join.found s tables j) = y.partners s tables includeDeleted t := by
  rw [hy.kind_eq, hleft, hy.found_eq hroot hfresh]
  rfl

/-- The aliases are still different after a join. -/
theorem nodup_concat {labels : List String} {label : String}
    (h : (j.map Prod.fst ++ label :: labels).Nodup) :
    label ∉ j.map Prod.fst ∧ ((j ++ [(label, o)]).map Prod.fst ++ labels).Nodup := by
  refine ⟨fun hmem => ?_, by simpa using h⟩
  exact (List.nodup_append.mp h).2.2 label hmem label List.mem_cons_self rfl

/-- What stands under the aliases of the relations after all joins. -/
theorem related_of_leads (hys : ∀ y ∈ ys, y.Sound root includeDeleted columns)
    (hleft : ∀ y ∈ ys, y.included.relation.joinKind = .left)
    (hroot : j.lookup root = some (some t))
    (hnodup : (j.map Prod.fst ++ ys.map (·.join.label)).Nodup)
    (h : Join.Leads s tables (ys.map (·.join)) j j') :
    ∀ y ∈ ys, ∃ o ∈ y.partners s tables includeDeleted t, j'.lookup y.join.label = some o := by
  induction ys generalizing j with
  | nil => exact fun y hy => absurd hy List.not_mem_nil
  | cons y ys ih =>
      obtain ⟨o, ho, hrest⟩ := h
      -- the later joins add to the row, so what stands under this alias stays
      obtain ⟨hfresh, hnodup'⟩ := nodup_concat (o := o) hnodup
      have partners := (hys y List.mem_cons_self).partners_eq s tables
        (hleft y List.mem_cons_self) hroot hfresh
      rw [partners] at ho
      intro z hz
      rcases List.mem_cons.mp hz with rfl | hz
      · obtain ⟨k, rfl⟩ := hrest.exists_append
        exact ⟨o, ho, JoinedRow.lookup_append_of_some (JoinedRow.lookup_concat hfresh) k⟩
      · exact ih (fun y hy => hys y (List.mem_cons_of_mem _ hy))
          (fun y hy => hleft y (List.mem_cons_of_mem _ hy))
          (JoinedRow.lookup_append_of_some hroot _) hnodup' hrest z hz

/-- Every row of the entity goes through all joins. -/
theorem exists_leads (s : Semantics) (tables : Tables)
    (hys : ∀ y ∈ ys, y.Sound root includeDeleted columns)
    (hleft : ∀ y ∈ ys, y.included.relation.joinKind = .left) (j : JoinedRow) :
    ∃ j', Join.Leads s tables (ys.map (·.join)) j j' := by
  induction ys generalizing j with
  | nil => exact ⟨j, rfl⟩
  | cons y ys ih =>
      obtain ⟨o, ho⟩ := JoinKind.exists_partner_left (y.join.found s tables j)
      have kind : y.join.kind = .left :=
        (hys y List.mem_cons_self).kind_eq.trans (hleft y List.mem_cons_self)
      obtain ⟨j', hj'⟩ := ih (fun y hy => hys y (List.mem_cons_of_mem _ hy))
        (fun y hy => hleft y (List.mem_cons_of_mem _ hy)) (j ++ [(y.join.label, o)])
      exact ⟨j', o, kind ▸ ho, hj'⟩

/-- Every row of the entity goes through all joins with each of the rows that belong to it. -/
theorem exists_leads_with (hys : ∀ y ∈ ys, y.Sound root includeDeleted columns)
    (hleft : ∀ y ∈ ys, y.included.relation.joinKind = .left)
    (hroot : j.lookup root = some (some t))
    (hnodup : (j.map Prod.fst ++ ys.map (·.join.label)).Nodup) (hy : y ∈ ys)
    (ho : o ∈ y.partners s tables includeDeleted t) :
    ∃ j', Join.Leads s tables (ys.map (·.join)) j j' ∧ j'.lookup y.join.label = some o := by
  induction ys generalizing j with
  | nil => exact absurd hy List.not_mem_nil
  | cons z ys ih =>
      have hys' : ∀ y ∈ ys, y.Sound root includeDeleted columns :=
        fun y hy => hys y (List.mem_cons_of_mem _ hy)
      have hleft' : ∀ y ∈ ys, y.included.relation.joinKind = .left :=
        fun y hy => hleft y (List.mem_cons_of_mem _ hy)
      rcases List.mem_cons.mp hy with rfl | hy
      · -- this relation continues with what was asked for, the others with anything
        obtain ⟨hfresh, -⟩ := nodup_concat (o := o) hnodup
        have partners := (hys y List.mem_cons_self).partners_eq s tables
          (hleft y List.mem_cons_self) hroot hfresh
        obtain ⟨j', hj'⟩ := exists_leads s tables hys' hleft' (j ++ [(y.join.label, o)])
        obtain ⟨k, rfl⟩ := hj'.exists_append
        exact ⟨_, ⟨o, partners ▸ ho, hj'⟩,
          JoinedRow.lookup_append_of_some (JoinedRow.lookup_concat hfresh) k⟩
      · obtain ⟨o', ho'⟩ := JoinKind.exists_partner_left (z.join.found s tables j)
        have kind : z.join.kind = .left :=
          (hys z List.mem_cons_self).kind_eq.trans (hleft z List.mem_cons_self)
        obtain ⟨j', hj', hlookup⟩ := ih hys' hleft' (JoinedRow.lookup_append_of_some hroot _)
          (nodup_concat (o := o') hnodup).2 hy
        exact ⟨j', ⟨o', kind ▸ ho', hj'⟩, hlookup⟩

end

/-! ## Selected rows -/

section

variable {s : Semantics} {tables : Tables} {map : EntityMap} {p : Predicate}
  {options : SelectOptions} {ys : List Inclusion} {y : Inclusion} {st : SelectStatement}
  {t : TableRow} {j : JoinedRow} {o : Option TableRow}

namespace SelectStatement.Selects

/-- The filter is about the row of the entity alone. -/
theorem mem_selected (h : st.Selects map p options ys) :
    j ∈ st.selected s tables ↔ ∃ t ∈ tables map.table,
      map.selects s p options.includeDeleted t = true ∧
      Join.Leads s tables (ys.map (·.join)) [(map.table.name, some t)] j := by
  rw [selected, List.mem_filter, mem_joined, h.table_eq, h.label_eq, h.joins_eq, h.admits]
  -- the joins do not change what stands under the alias of the entity
  have cells : ∀ t, Join.Leads s tables (ys.map (·.join)) [(map.table.name, some t)] j →
      (fun name => j.cell ⟨none, map.table.name, name⟩) = t := by
    intro t hleads
    obtain ⟨k, rfl⟩ := hleads.exists_append
    exact cells_of_lookup (JoinedRow.lookup_append_of_some (by simp) k)
  constructor
  · rintro ⟨⟨t, ht, hleads⟩, hselects⟩
    exact ⟨t, ht, cells t hleads ▸ hselects, hleads⟩
  · rintro ⟨t, ht, hselects, hleads⟩
    exact ⟨⟨t, ht, hleads⟩, cells t hleads ▸ hselects⟩

theorem nodup_labels (h : st.Selects map p options ys)
    (hlabels : (st.label :: st.joins.map (·.label)).Nodup) (t : TableRow) :
    (([(map.table.name, some t)] : JoinedRow).map Prod.fst ++ ys.map (·.join.label)).Nodup := by
  rw [h.label_eq, h.joins_eq, List.map_map] at hlabels
  exact hlabels

variable (h : st.Selects map p options ys)
  (hleft : ∀ y ∈ ys, y.included.relation.joinKind = .left)
  (hlabels : (st.label :: st.joins.map (·.label)).Nodup)
include h hleft hlabels

theorem joinsRow_of_leads
    (hj : Join.Leads s tables (ys.map (·.join)) [(map.table.name, some t)] j) :
    JoinsRow s tables options.includeDeleted map.table.name ys t j where
  root_eq := by
    obtain ⟨k, rfl⟩ := hj.exists_append
    exact JoinedRow.lookup_append_of_some (by simp) k
  related := related_of_leads h.sound hleft (by simp) (h.nodup_labels hlabels t) hj

/-- A selected row continues a row of the entity that is selected. -/
theorem exists_row (hj : j ∈ st.selected s tables) :
    ∃ t ∈ tables map.table, map.selects s p options.includeDeleted t = true ∧
      JoinsRow s tables options.includeDeleted map.table.name ys t j := by
  obtain ⟨t, ht, hselects, hleads⟩ := h.mem_selected.mp hj
  exact ⟨t, ht, hselects, h.joinsRow_of_leads hleft hlabels hleads⟩

/-- A row of the entity that is selected is continued. -/
theorem exists_selected (ht : t ∈ tables map.table)
    (hselects : map.selects s p options.includeDeleted t = true) :
    ∃ j ∈ st.selected s tables,
      JoinsRow s tables options.includeDeleted map.table.name ys t j := by
  obtain ⟨j, hj⟩ := exists_leads s tables h.sound hleft [(map.table.name, some t)]
  exact ⟨j, h.mem_selected.mpr ⟨t, ht, hselects, hj⟩, h.joinsRow_of_leads hleft hlabels hj⟩

/-- It is continued with each of the rows that belong to it. -/
theorem exists_selected_with (ht : t ∈ tables map.table)
    (hselects : map.selects s p options.includeDeleted t = true) (hy : y ∈ ys)
    (ho : o ∈ y.partners s tables options.includeDeleted t) :
    ∃ j ∈ st.selected s tables,
      JoinsRow s tables options.includeDeleted map.table.name ys t j ∧
      j.lookup y.join.label = some o := by
  obtain ⟨j, hj, hlookup⟩ := exists_leads_with h.sound hleft (by simp)
    (h.nodup_labels hlabels t) hy ho
  exact ⟨j, h.mem_selected.mpr ⟨t, ht, hselects, hj⟩, h.joinsRow_of_leads hleft hlabels hj, hlookup⟩

end SelectStatement.Selects

end

/-! ## What selected rows show -/

/-- A relation whose records can be loaded: a collection, or a reference to the key of its target
that may be missing. The slot is for records of the target, and the rows of its table can be read
and have different keys. -/
structure Included.Loadable (m : Model) (map : EntityMap) (tables : Tables) (x : Included) :
    Prop extends x.Declared m map where
  slot : ∃ slot, map.prototype.slot? x.relation.property = some slot ∧
    slot.target = x.relation.target
  stores : ∃ key type, x.target.Stores key type (tables x.target.table) ∧
    (x.relation.kind = .manyToOne →
      x.relation.nullable = true ∧ x.relation.foreignKey = key.property)

/-- The row under an alias. -/
def JoinedRow.row? (j : JoinedRow) (label : String) : Option TableRow := (j.lookup label).join

/-- The records that a joined row shows. -/
def shownIn (map : EntityMap) (ys : List Inclusion) (j : JoinedRow) : Shown where
  root := (((j.row? map.table.name).map map.shown).getD default).1
  key := (((j.row? map.table.name).map map.shown).getD default).2
  children := ys.map fun y => (j.row? y.join.label).map y.included.target.shown

section

variable {m : Model} {s : Semantics} {tables : Tables} {map : EntityMap} {p : Predicate}
  {options : SelectOptions} {includeDeleted : Bool} {ys : List Inclusion} {y : Inclusion}
  {st : SelectStatement} {t : TableRow} {j : JoinedRow} {x : Included}

theorem Included.Loadable.joinKind_eq (hx : x.Loadable m map tables) :
    x.relation.joinKind = .left := by
  obtain ⟨key, type, -, hreference⟩ := hx.stores
  unfold RelationDef.joinKind
  cases hkind : x.relation.kind with
  | oneToMany => rfl
  | manyToOne => simp only [(hreference hkind).1, if_true]

theorem Included.Loadable.target_derived (hx : x.Loadable m map tables) : x.target.Derived :=
  Model.derived_of_entityMap hx.target_eq

theorem Included.mem_found {t' : TableRow} (h : t' ∈ x.found s tables includeDeleted t) :
    t' ∈ tables x.target.table := (List.mem_filter.mp h).1

/-- The row under the alias of a relation is one of those that were found, if any were. -/
theorem JoinsRow.row?_eq (hj : JoinsRow s tables includeDeleted map.table.name ys t j)
    (hy : y ∈ ys) :
    (∃ t' ∈ y.included.found s tables includeDeleted t,
      j.lookup y.join.label = some (some t') ∧ j.row? y.join.label = some t') ∨
    (j.lookup y.join.label = some none ∧ j.row? y.join.label = none) := by
  obtain ⟨o, ho, hlookup⟩ := hj.related y hy
  rcases JoinKind.mem_partners_left.mp ho with ⟨t', ht', rfl⟩ | ⟨-, rfl⟩
  · exact .inl ⟨t', ht', hlookup, by rw [JoinedRow.row?, hlookup]; rfl⟩
  · exact .inr ⟨hlookup, by rw [JoinedRow.row?, hlookup]; rfl⟩

theorem JoinsRow.shownIn_eq (hj : JoinsRow s tables includeDeleted map.table.name ys t j) :
    (shownIn map ys j).root = (map.shown t).1 ∧ (shownIn map ys j).key = (map.shown t).2 := by
  have : j.row? map.table.name = some t := by
    rw [JoinedRow.row?, hj.root_eq]
    rfl
  simp only [shownIn, this]
  exact ⟨rfl, rfl⟩

/-- The children that a joined row shows stand for the rows under the aliases. -/
theorem child_shownIn {i : Nat} {child : Record} {key : String} :
    (shownIn map ys j).Child i child key ↔ ∃ y t', ys[i]? = some y ∧
      j.row? y.join.label = some t' ∧ y.included.target.shown t' = (child, key) := by
  simp only [Shown.Child, shownIn, List.getElem?_map]
  cases ys[i]? with
  | none => simp
  | some y => simp

/-- The answer to a select shows what is under its aliases. -/
theorem SelectStatement.Selects.shows (h : st.Selects map p options ys) (hderived : map.Derived)
    {key : ColumnDef} {type : FieldType} (hstores : map.Stores key type (tables map.table))
    (hys : ∀ y ∈ ys, y.included.Loadable m map tables) {root : Segment} (hmap : root.map = map)
    (hlabel : root.label = map.table.name) (hlaid : root.Laid st.columns)
    (ht : t ∈ tables map.table)
    (hj : JoinsRow s tables includeDeleted map.table.name ys t j) (n : Nat) :
    Shows root (ys.map (·.segment)) (st.output j, n) (shownIn map ys j) := by
  obtain ⟨root_eq, key_eq⟩ := hj.shownIn_eq
  obtain ⟨hload, -, hidentity, hkey, -⟩ := hstores.shown_eq hderived ht
  subst hmap
  refine ⟨⟨?_, ?_⟩, ?_⟩
  · rw [root_eq]
    exact hlaid.readRow_some hderived hstores.keyColumns_eq rfl (hlabel ▸ hj.root_eq) hkey hload
  · rw [root_eq, key_eq]
    exact hidentity n
  · rw [shownIn, List.forall₂_map_left_iff, List.forall₂_map_right_iff, List.forall₂_same]
    intro y hy
    have sound := h.sound y hy
    obtain ⟨key', type', hstores', -⟩ := (hys y hy).stores
    have hderived' := (hys y hy).target_derived
    rw [← sound.map_eq] at hstores' hderived'
    rcases hj.row?_eq hy with ⟨t', ht', hlookup, hrow⟩ | ⟨hlookup, hrow⟩
    · have hmem : t' ∈ tables y.segment.map.table := sound.map_eq ▸ Included.mem_found ht'
      obtain ⟨hload', -, hidentity', hkey', -⟩ := hstores'.shown_eq hderived' hmem
      rw [hrow, Option.map_some, ← sound.map_eq]
      refine ⟨?_, hidentity' n⟩
      exact sound.laid.readRow_some hderived' hstores'.keyColumns_eq rfl
        (sound.label_eq ▸ hlookup) hkey' hload'
    · rw [hrow, Option.map_none]
      exact sound.laid.readRow_none hderived' hstores'.keyColumns_eq rfl (sound.label_eq ▸ hlookup)

/-- A row that stands under the alias of a relation was found. -/
theorem JoinsRow.mem_found (hj : JoinsRow s tables includeDeleted map.table.name ys t j)
    (hy : y ∈ ys) {t' : TableRow} (hrow : j.row? y.join.label = some t') :
    t' ∈ y.included.found s tables includeDeleted t := by
  rcases hj.row?_eq hy with ⟨t'', ht'', -, hrow'⟩ | ⟨-, hrow'⟩
  · rw [hrow'] at hrow
    cases hrow
    exact ht''
  · rw [hrow'] at hrow
    cases hrow

/-- At most one row belongs to a reference: its key is found equal to the one value that refers to
it. -/
theorem Included.Loadable.eq_of_reference (hx : x.Loadable m map tables) (hs : s.ReadsAlike)
    (hkind : x.relation.kind = .manyToOne) {t₁ t₂ : TableRow}
    (h₁ : t₁ ∈ x.found s tables includeDeleted t) (h₂ : t₂ ∈ x.found s tables includeDeleted t) :
    t₁ = t₂ := by
  obtain ⟨key, type, hstores, hreference⟩ := hx.stores
  -- the foreign column is the key of the target
  have hforeign : x.foreign = key := by
    have hcolumn := hx.foreign_eq
    rw [(hreference hkind).2] at hcolumn
    exact hx.target_derived.eq_of_property (List.mem_of_find?_eq_some hcolumn)
      (hstores.key_mem hx.target_derived).1 (by simpa using List.find?_some hcolumn)
  have equal : ∀ t' ∈ x.found s tables includeDeleted t,
      s.test .equal (t' key.name) (t x.own.name) = some true := by
    intro t' ht'
    have hbelongs := (List.mem_filter.mp ht').2
    rw [Included.belongs, Bool.and_eq_true, beq_iff_eq, hforeign] at hbelongs
    exact hbelongs.1
  -- two keys that equal the same value are read alike, and keys are all different
  have tied := s.test_equal_trans (equal t₁ h₁) (s.test_equal_comm (equal t₂ h₂))
  obtain ⟨-, w₁, -, -, hw₁, -⟩ := hstores.exists_load hx.target_derived (Included.mem_found h₁)
  obtain ⟨-, w₂, -, -, hw₂, -⟩ := hstores.exists_load hx.target_derived (Included.mem_found h₂)
  refine hstores.eq_of_convert (Included.mem_found h₁) (Included.mem_found h₂) ?_
  rw [hw₁, hw₂, hs type hstores.isKey _ _ w₁ w₂ tied hw₁ hw₂]

/-- A child that is shown stands for a row that was found. -/
theorem JoinsRow.exists_found (hj : JoinsRow s tables includeDeleted map.table.name ys t j)
    {i : Nat} {child : Record} {key : String} (h : (shownIn map ys j).Child i child key) :
    ∃ y t', ys[i]? = some y ∧ t' ∈ y.included.found s tables includeDeleted t ∧
      y.included.target.shown t' = (child, key) := by
  obtain ⟨y, t', hy, hrow, hshown⟩ := child_shownIn.mp h
  exact ⟨y, t', hy, hj.mem_found (List.mem_of_getElem? hy) hrow, hshown⟩

theorem relation_eq_of_getElem? {i : Nat} {r : RelationDef}
    (hr : (ys.map (·.included.relation))[i]? = some r) (hy : ys[i]? = some y) :
    r = y.included.relation := by
  rw [List.getElem?_map, hy] at hr
  exact (Option.some.inj hr).symm

/-- What the rows of a select show for relations fits the slots of the entity. -/
theorem JoinsRow.fitsSlots (hderived : map.Derived) {key : ColumnDef} {type : FieldType}
    (hstores : map.Stores key type (tables map.table))
    (hys : ∀ y ∈ ys, y.included.Loadable m map tables) (ht : t ∈ tables map.table)
    (hj : JoinsRow s tables includeDeleted map.table.name ys t j) :
    (shownIn map ys j).FitsSlots (ys.map (·.included.relation)) where
  room r hr := by
    obtain ⟨y, hy, rfl⟩ := List.mem_map.mp hr
    obtain ⟨-, hkept, -⟩ := hstores.shown_eq hderived ht
    obtain ⟨slot, hslot, htarget⟩ := (hys y hy).slot
    refine ⟨slot, ?_, htarget⟩
    rw [hj.shownIn_eq.1, Record.slot?_congr hkept.slots_eq, hslot]
  type_eq i r child key hr hchild := by
    obtain ⟨y, u, hy, hfound, hshown⟩ := hj.exists_found hchild
    have hmem := List.mem_of_getElem? hy
    obtain ⟨_, _, hstores', -⟩ := (hys y hmem).stores
    obtain ⟨-, hkept, -⟩ :=
      hstores'.shown_eq (hys y hmem).target_derived (Included.mem_found hfound)
    rw [hshown] at hkept
    rw [relation_eq_of_getElem? hr hy, hkept.type_eq, (hys y hmem).target_derived.type_eq]
    exact Model.type_of_entityMap (hys y hmem).target_eq

end

/-! ## Selected graphs -/

/-- The slot of a relation holds the records of the rows that belong to a row of the entity, each
once, after what it holds in a new record. -/
def Included.Fills (s : Semantics) (tables : Tables) (includeDeleted : Bool) (x : Included)
    (t : TableRow) (loaded g : Record) : Prop :=
  ∃ slot ts children, loaded.slot? x.relation.property = some slot ∧
    List.Perm ts (x.found s tables includeDeleted t) ∧
    List.Forall₂ (fun t' child => x.target.load t' = .ok child) ts children ∧
    g.slot? x.relation.property = some { slot with items := slot.kind.filled slot.items children }

/-- The record that a row of the entity is loaded as, with the included relations. -/
structure GraphOver (s : Semantics) (tables : Tables) (includeDeleted : Bool)
    (xs : List Included) (t : TableRow) (loaded g : Record) : Prop where
  type_eq : g.type = loaded.type
  fields_eq : g.fields = loaded.fields
  slot_eq : ∀ q, q ∉ xs.map (·.relation.property) → g.slot? q = loaded.slot? q
  fills : ∀ x ∈ xs, x.Fills s tables includeDeleted t loaded g

/-- The graph of a row of the entity. -/
def IsGraph (s : Semantics) (tables : Tables) (map : EntityMap) (includeDeleted : Bool)
    (xs : List Included) (t : TableRow) (g : Record) : Prop :=
  ∃ loaded, map.load t = .ok loaded ∧ GraphOver s tables includeDeleted xs t loaded g

/-- Two lists whose items correspond by keys correspond in some order. -/
theorem exists_perm_forall₂ {α β γ : Type} {R : α → β → Prop} {xs : List α} {ys : List β}
    (f : α → γ) (g : β → γ) (hR : ∀ x y, R x y → f x = g y) (hxs : xs.Nodup)
    (hinj : ∀ x ∈ xs, ∀ x' ∈ xs, f x = f x' → x = x') (hys : (ys.map g).Nodup)
    (hleft : ∀ x ∈ xs, ∃ y ∈ ys, f x = g y) (hright : ∀ y ∈ ys, ∃ x ∈ xs, R x y) :
    ∃ zs, zs.Perm xs ∧ List.Forall₂ R zs ys := by
  obtain ⟨zs, hzs⟩ := exists_forall₂ (R := fun x y => x ∈ xs ∧ R x y) hright
  -- the chosen items have the keys of `ys`, so none is chosen twice
  have keys : zs.map f = ys.map g :=
    map_eq_map_iff_forall₂.mpr (hzs.imp fun x y hxy => hR x y hxy.2)
  have within : ∀ z ∈ zs, z ∈ xs := by
    intro z hz
    obtain ⟨_, -, hmem, -⟩ := exists_of_mem_forall₂ hzs.flip hz
    exact hmem
  refine ⟨zs, (List.perm_ext_iff_of_nodup (.of_map f (keys ▸ hys)) hxs).mpr fun x => ?_,
    hzs.imp fun _ _ hxy => hxy.2⟩
  refine ⟨within x, fun hx => ?_⟩
  obtain ⟨y, hy, heq⟩ := hleft x hx
  obtain ⟨z, hz, hmem, hzy⟩ := exists_of_mem_forall₂ hzs hy
  rwa [hinj x hx z hmem (heq.trans (hR z y hzy).symm)]

section

variable {m : Model} {s : Semantics} {tables : Tables} {map : EntityMap} {p : Predicate}
  {options : SelectOptions} {ys : List Inclusion} {y : Inclusion} {st : SelectStatement}
  {t : TableRow} {key : ColumnDef} {type : FieldType} {js : List JoinedRow}

/-- Items that are all different and all the same are one at most. -/
theorem length_le_one_of_eq {α : Type} {xs : List α} (hnodup : xs.Nodup)
    (h : ∀ x ∈ xs, ∀ y ∈ xs, x = y) : xs.length ≤ 1 := by
  match xs, hnodup, h with
  | [], _, _ => exact Nat.zero_le 1
  | [_], _, _ => exact Nat.le_refl 1
  | x :: y :: _, hnodup, h =>
      have same : x = y := h x (by simp) y (by simp)
      simp [same] at hnodup

theorem EntityMap.Stores.nodup {rows : List TableRow} (h : map.Stores key type rows) :
    rows.Nodup := .of_map _ h.distinct

/-- The records that the selected rows show for a row of the entity are those of the rows that
belong to it: none is missing and none is foreign. -/
theorem SelectStatement.Selects.child_iff (h : st.Selects map p options ys)
    (hderived : map.Derived) (hstores : map.Stores key type (tables map.table))
    (hys : ∀ y ∈ ys, y.included.Loadable m map tables)
    (hlabels : (st.label :: st.joins.map (·.label)).Nodup)
    (hjs : js.Perm (st.selected s tables)) (ht : t ∈ tables map.table)
    (hselects : map.selects s p options.includeDeleted t = true) {i : Nat} (hy : ys[i]? = some y)
    (child : Record) (text : String) :
    (∃ w ∈ js.map (shownIn map ys), w.key = (map.shown t).2 ∧ w.Child i child text) ↔
      ∃ t' ∈ y.included.found s tables options.includeDeleted t,
        y.included.target.shown t' = (child, text) := by
  have hleft : ∀ y ∈ ys, y.included.relation.joinKind = .left := fun y hy => (hys y hy).joinKind_eq
  have hmem := List.mem_of_getElem? hy
  constructor
  · rintro ⟨w, hw, hkey, hchild⟩
    obtain ⟨j, hj, rfl⟩ := List.mem_map.mp hw
    obtain ⟨t₁, ht₁, -, hjoins⟩ := h.exists_row hleft hlabels (hjs.mem_iff.mp hj)
    rw [hjoins.shownIn_eq.2] at hkey
    -- rows that show the same key continue the same row of the entity
    obtain rfl := hstores.eq_of_shown hderived ht₁ ht hkey
    obtain ⟨y', t', hy', hfound, hshown⟩ := hjoins.exists_found hchild
    obtain rfl : y = y' := Option.some.inj (hy.symm.trans hy')
    exact ⟨t', hfound, hshown⟩
  · rintro ⟨t', ht', hshown⟩
    -- the row that belongs to it stands beside it in one of the selected rows
    have partner : some t' ∈ y.partners s tables options.includeDeleted t :=
      JoinKind.mem_partners_left.mpr (.inl ⟨t', ht', rfl⟩)
    obtain ⟨j, hj, hjoins, hlookup⟩ :=
      h.exists_selected_with hleft hlabels ht hselects hmem partner
    refine ⟨_, List.mem_map_of_mem (hjs.mem_iff.mpr hj), hjoins.shownIn_eq.2, ?_⟩
    exact child_shownIn.mpr ⟨y, t', hy, by rw [JoinedRow.row?, hlookup]; rfl, hshown⟩

/-- The first records of each identity that the selected rows show are those of the rows that
belong to the row of the entity. -/
theorem SelectStatement.Selects.mem_firsts_iff (h : st.Selects map p options ys)
    (hderived : map.Derived) (hstores : map.Stores key type (tables map.table))
    (hys : ∀ y ∈ ys, y.included.Loadable m map tables)
    (hlabels : (st.label :: st.joins.map (·.label)).Nodup)
    (hjs : js.Perm (st.selected s tables)) (ht : t ∈ tables map.table)
    (hselects : map.selects s p options.includeDeleted t = true) {i : Nat} (hy : ys[i]? = some y)
    (c : Record × String) :
    c ∈ firsts (childrenOf (js.map (shownIn map ys)) (map.shown t).2 i) ↔
      ∃ t' ∈ y.included.found s tables options.includeDeleted t,
        y.included.target.shown t' = c := by
  have found_iff : ∀ c, c ∈ childrenOf (js.map (shownIn map ys)) (map.shown t).2 i ↔
      ∃ t' ∈ y.included.found s tables options.includeDeleted t,
        y.included.target.shown t' = c := fun c =>
    mem_childrenOf.trans (h.child_iff hderived hstores hys hlabels hjs ht hselects hy c.1 c.2)
  have hmem := List.mem_of_getElem? hy
  refine ⟨fun hc => (found_iff c).mp (mem_of_mem_firsts hc), ?_⟩
  rintro ⟨t', ht', rfl⟩
  have shown := (found_iff _).mpr ⟨t', ht', rfl⟩
  obtain ⟨d, hd, hkey⟩ := List.mem_map.mp
    ((mem_keys_firsts _ _).mpr (List.mem_map_of_mem (f := (·.2)) shown))
  -- a key belongs to one row of the table
  obtain ⟨t'', ht'', rfl⟩ := (found_iff d).mp (mem_of_mem_firsts hd)
  obtain ⟨_, _, hstores', -⟩ := (hys y hmem).stores
  have same : t'' = t' := hstores'.eq_of_shown (hys y hmem).target_derived
    (Included.mem_found ht'') (Included.mem_found ht') hkey
  exact same ▸ hd

/-- A root that has been filled with what the selected rows show is the graph of its row. -/
theorem SelectStatement.Selects.isGraph_of_filled (h : st.Selects map p options ys)
    (hderived : map.Derived) (hstores : map.Stores key type (tables map.table))
    (hys : ∀ y ∈ ys, y.included.Loadable m map tables) (hs : s.ReadsAlike)
    (hlabels : (st.label :: st.joins.map (·.label)).Nodup)
    (hjs : js.Perm (st.selected s tables)) (ht : t ∈ tables map.table)
    (hselects : map.selects s p options.includeDeleted t = true) {g : Gathered}
    (hfilled : Filled (ys.map (·.included.relation)) (map.shown t).1
      (childrenOf (js.map (shownIn map ys)) (map.shown t).2) g) :
    IsGraph s tables map options.includeDeleted (ys.map (·.included)) t g.root := by
  obtain ⟨hload, hkept, -⟩ := hstores.shown_eq hderived ht
  refine ⟨_, hload, hfilled.type_eq, hfilled.fields_eq, fun q hq => ?_, fun x hx => ?_⟩
  · exact hfilled.slot_eq q (by simpa [List.map_map] using hq)
  · obtain ⟨y, hmem, rfl⟩ := List.mem_map.mp hx
    obtain ⟨i, hy⟩ := List.mem_iff_getElem?.mp hmem
    obtain ⟨key', type', hstores', -⟩ := (hys y hmem).stores
    have hderived' := (hys y hmem).target_derived
    have hslot := hfilled.slot i y.included.relation (by rw [List.getElem?_map, hy]; rfl)
    have children := h.mem_firsts_iff hderived hstores hys hlabels hjs ht hselects hy
    have hnodup := nodup_firsts (childrenOf (js.map (shownIn map ys)) (map.shown t).2 i)
    generalize firsts (childrenOf (js.map (shownIn map ys)) (map.shown t).2 i) = cs
      at hslot children hnodup
    -- the rows that belong to the entity and the records attached correspond by their keys
    obtain ⟨ts, hperm, hts⟩ := exists_perm_forall₂
      (R := fun t' c => t' ∈ y.included.found s tables options.includeDeleted t ∧
        y.included.target.shown t' = c)
      (fun t' => (y.included.target.shown t').2) Prod.snd
      (fun t' c hR => congrArg Prod.snd hR.2)
      (hstores'.nodup.filter _)
      (fun t₁ h₁ t₂ h₂ heq => hstores'.eq_of_shown hderived' (Included.mem_found h₁)
        (Included.mem_found h₂) heq) hnodup
      (fun t' ht' => ⟨_, (children _).mpr ⟨t', ht', rfl⟩, rfl⟩)
      (fun c hc => by
        obtain ⟨t', ht', hshown⟩ := (children c).mp hc
        exact ⟨t', ht', ht', hshown⟩)
    obtain ⟨slot, hprototype, -⟩ := (hys y hmem).slot
    have hloaded : (map.shown t).1.slot? y.included.relation.property = some slot := by
      rw [Record.slot?_congr hkept.slots_eq, hprototype]
    have hkind : slot.kind = y.included.relation.kind := by
      have kind := hderived.slot _ (hys y hmem).mem
      simpa [EntityType.hasSlot, hprototype] using kind
    -- at most one row belongs to a reference, so that nothing is replaced
    have all : slot.kind.latest (cs.map (·.1)) = cs.map (·.1) := by
      refine RelationKind.latest_eq fun hone => ?_
      rw [List.length_map]
      refine length_le_one_of_eq (.of_map _ hnodup) fun c hc d hd => ?_
      obtain ⟨t₁, ht₁, rfl⟩ := (children c).mp hc
      obtain ⟨t₂, ht₂, rfl⟩ := (children d).mp hd
      rw [(hys y hmem).eq_of_reference hs (hkind ▸ hone) ht₁ ht₂]
    refine ⟨slot, ts, cs.map Prod.fst, hloaded, hperm, ?_, ?_⟩
    · rw [List.forall₂_map_right_iff]
      refine hts.imp fun t' c hc => ?_
      obtain ⟨hload', -⟩ := hstores'.shown_eq hderived' (Included.mem_found hc.1)
      rw [← hc.2]
      exact hload'
    · rw [hslot, hloaded, Option.map_some, all]

/-- **A joined select returns the right graphs.** For every row of the entity on which the
predicate is true and which is not left out as deleted there is exactly one graph, whatever the
order of the answer, and the included slots hold exactly the records that belong to the row. -/
theorem graphs_of_select {entity : String} {xs : List Included}
    (hmap : m.entityMap entity = .ok map) (hstores : map.Stores key type (tables map.table))
    (hxs : ∀ x ∈ xs, x.Loadable m map tables) (hnodup : (xs.map (·.relation.property)).Nodup)
    (haccepts : m.Accepts map p) (hp : p.OfProperties) (hlimit : options.limit = none)
    (horder : m.Orders map (xs.map (·.relation.property)) options.orderBy)
    (hs : s.ReadsAlike) :
    ∃ st, m.select map p (xs.map (·.relation.property)) options = .ok st ∧
      ((st.label :: st.joins.map (·.label)).Nodup → ∀ rows, st.Answers s tables rows →
        ∃ graphs, m.graphs st.segments rows = .ok graphs ∧
          ∃ ts, List.Perm ts ((tables map.table).filter
              (map.selects s p options.includeDeleted)) ∧
            List.Forall₂ (IsGraph s tables map options.includeDeleted xs) ts graphs) := by
  have hderived := Model.derived_of_entityMap hmap
  obtain ⟨st, ys, hst, rfl, h⟩ := exists_select hderived (fun x hx => (hxs x hx).toDeclared) hnodup
    haccepts hp options horder
  refine ⟨st, hst, fun hlabels rows hrows => ?_⟩
  have hys : ∀ y ∈ ys, y.included.Loadable m map tables :=
    fun y hy => hxs _ (List.mem_map_of_mem hy)
  have hleft : ∀ y ∈ ys, y.included.relation.joinKind = .left :=
    fun y hy => (hys y hy).joinKind_eq
  obtain ⟨js, hjs, rfl⟩ := hrows
  rw [h.limit_eq, hlimit]
  obtain ⟨root, hsegments, hrootmap, hrootlabel, hlaid⟩ := h.segments_eq
  have joins : ∀ j ∈ js, ∃ t ∈ tables map.table,
      map.selects s p options.includeDeleted t = true ∧
      JoinsRow s tables options.includeDeleted map.table.name ys t j :=
    fun j hj => h.exists_row hleft hlabels (hjs.mem_iff.mp hj)
  -- what the rows of the answer show fits the slots, so that all of them can be gathered
  have hfits : ∀ w ∈ js.map (shownIn map ys), w.FitsSlots (ys.map (·.included.relation)) := by
    intro w hw
    obtain ⟨j, hj, rfl⟩ := List.mem_map.mp hw
    obtain ⟨t, ht, -, hjoins⟩ := joins j hj
    exact hjoins.fitsSlots hderived hstores hys ht
  have hshows : List.Forall₂ (fun row w => ∀ n, Shows root (ys.map (·.segment)) (row, n) w)
      (js.map st.output) (js.map (shownIn map ys)) := by
    rw [List.forall₂_map_left_iff, List.forall₂_map_right_iff, List.forall₂_same]
    intro j hj
    obtain ⟨t, ht, -, hjoins⟩ := joins j hj
    exact h.shows hderived hstores hys hrootmap hrootlabel hlaid ht hjoins
  obtain ⟨gs, hgs, gathered⟩ := exists_graphs
    (by
      rw [List.map_map] at hnodup ⊢
      exact hnodup)
    (by
      rw [List.forall₂_map_left_iff, List.forall₂_map_right_iff, List.forall₂_same]
      exact fun y hy => (h.sound y hy).relation_eq) (forall₂_presentRows hshows 0) hfits m
  refine ⟨gs.map (·.root), by rw [hsegments]; exact hgs, ?_⟩
  -- the rows selected and the graphs gathered correspond by their keys
  obtain ⟨ts, hperm, hts⟩ := exists_perm_forall₂
    (R := fun t g => IsGraph s tables map options.includeDeleted (ys.map (·.included)) t g.root ∧
      (map.shown t).2 = g.key)
    (fun t => (map.shown t).2) Gathered.key (fun _ _ hR => hR.2)
    (hstores.nodup.filter (map.selects s p options.includeDeleted))
    (fun t₁ h₁ t₂ h₂ heq => hstores.eq_of_shown hderived (List.mem_filter.mp h₁).1
      (List.mem_filter.mp h₂).1 heq) gathered.keys_nodup
    (fun t ht => by
      obtain ⟨ht, hselects⟩ := List.mem_filter.mp ht
      obtain ⟨j, hj, hjoins⟩ := h.exists_selected hleft hlabels ht hselects
      have hkey := gathered.mem_keys.mpr
        ⟨_, List.mem_map_of_mem (hjs.mem_iff.mpr hj), hjoins.shownIn_eq.2⟩
      obtain ⟨g, hg, heq⟩ := List.mem_map.mp hkey
      exact ⟨g, hg, heq.symm⟩)
    (fun g hg => by
      obtain ⟨w, hw, hkey, hfilled⟩ := gathered.exists_of_mem hg
      obtain ⟨j, hj, rfl⟩ := List.mem_map.mp hw
      obtain ⟨t, ht, hselects, hjoins⟩ := joins j hj
      rw [hjoins.shownIn_eq.2] at hkey
      rw [hjoins.shownIn_eq.1, ← hkey] at hfilled
      exact ⟨t, List.mem_filter.mpr ⟨ht, hselects⟩, h.isGraph_of_filled hderived hstores hys hs
        hlabels hjs ht hselects hfilled, hkey⟩)
  exact ⟨ts, hperm, List.forall₂_map_right_iff.mpr (hts.imp fun _ _ hR => hR.1)⟩

end

/-! ## The sample library -/

open Conformance Sample

theorem stores_library :
    (mapOf Library.book).Stores bookKey (.optional .int32)
      (library (mapOf Library.book).table) where
  keyColumns_eq := by decide +kernel
  fieldType?_eq := rfl
  isKey := .inr ⟨.int32, by decide, rfl⟩
  reads := by decide +kernel
  nonempty t ht w hw := by
    obtain rfl := List.mem_singleton.mp ht
    cases hw
    rfl
  distinct := by decide +kernel

theorem loadable_editor : editor.Loadable (model none none) (mapOf Library.book) library where
  mem := by decide +kernel
  target_eq := rfl
  own_eq := by decide +kernel
  foreign_eq := by decide +kernel
  slot := ⟨_, rfl, rfl⟩
  stores := by
    refine ⟨authorKey, .uuid, ⟨by decide +kernel, rfl, .inl (by decide), by decide +kernel, ?_,
      by decide +kernel⟩, fun _ => ⟨rfl, rfl⟩⟩
    intro t ht w hw
    obtain rfl := List.mem_singleton.mp ht
    cases hw
    decide +kernel

theorem loadable_reviews : reviews.Loadable (model none none) (mapOf Library.book) library where
  mem := by decide +kernel
  target_eq := rfl
  own_eq := by decide +kernel
  foreign_eq := by decide +kernel
  slot := ⟨_, rfl, rfl⟩
  stores := by
    refine ⟨reviewKey, .uuid, ⟨by decide +kernel, rfl, .inl (by decide), by decide +kernel, ?_,
      by decide +kernel⟩, nofun⟩
    intro t ht w hw
    rcases List.mem_pair.mp ht with rfl | rfl <;> cases hw <;> decide +kernel

/-- Every answer to a select of the book, with its editor and its reviews, gives one graph. -/
theorem graphs_of_select_library :
    let p : Predicate := .compare .equal "title" (.varchar (some "Ode"))
    ∃ st, (model none none).select (mapOf Library.book) p ["editor", "reviews"] {} = .ok st ∧
      ∀ rows, st.Answers .byContent library rows → ∃ graph,
        (model none none).graphs st.segments rows = .ok [graph] ∧
        IsGraph .byContent library (mapOf Library.book) false [editor, reviews] bookRow graph := by
  intro p
  have hmap : (model none none).entityMap "lib::Book" = .ok (mapOf Library.book) := rfl
  have hxs : ∀ x ∈ [editor, reviews],
      x.Loadable (model none none) (mapOf Library.book) library := by
    simpa using ⟨loadable_editor, loadable_reviews⟩
  have hp : p.OfProperties := by
    intro path hpath
    obtain rfl := List.mem_singleton.mp hpath
    decide +kernel
  have hlimit : ({} : SelectOptions).limit = none := rfl
  obtain ⟨st, hst, h⟩ := graphs_of_select hmap stores_library hxs (by decide +kernel) ⟨_, _, rfl⟩
    hp hlimit (fun _ ho => absurd ho List.not_mem_nil) Semantics.readsAlike_byContent
  have hlabels : (st.label :: st.joins.map (·.label)).Nodup := by
    have closed : ((model none none).select (mapOf Library.book) p
        ([editor, reviews].map (·.relation.property)) {}).toOption.any
        (fun st => (st.label :: st.joins.map (·.label)).Nodup) = true := by decide +kernel
    rw [hst] at closed
    simpa [Except.toOption] using closed
  refine ⟨st, hst, fun rows hrows => ?_⟩
  obtain ⟨graphs, hgraphs, ts, hts, hall⟩ := h hlabels rows hrows
  have selected : (library (mapOf Library.book).table).filter
      ((mapOf Library.book).selects .byContent p false) = [bookRow] :=
    List.filter_cons_of_pos (by decide +kernel)
  rw [selected, List.perm_singleton] at hts
  subst hts
  cases hall with
  | @cons _ graph _ _ hgraph hnone =>
      cases hnone
      exact ⟨graph, hgraphs, hgraph⟩

end GraphStore