import GraphStore.Proofs.Model.Validity

/-!
# What derived maps are like

A map that was derived from a declaration has no property twice among its columns, nor among its
relations, and no property that is both.
-/

set_option autoImplicit false

namespace GraphStore

variable {α : Type}

/-- The column of a role, if there is one, is fit for it. -/
def EntityType.RoleFits (role : Option Nat) (columns : List ColumnDef) (fit : Value → Prop) : Prop :=
  ∀ i, role = some i → ∃ c, columns[i]? = some c ∧ fit c.value

/-- What holds of every map that can be derived. -/
structure EntityMap.Derived (map : EntityMap) : Prop where
  columns_nodup : (map.columns.map (·.property)).Nodup
  relations_nodup : (map.relations.map (·.property)).Nodup
  keys_eq : map.keys = EntityType.keyPositions map.columns
  selectable : ∀ c ∈ map.columns, c.isKey = true → c.selectable = true
  field_of_column : ∀ c ∈ map.columns, map.prototype.field? c.property = some c.value
  type_eq : map.prototype.type = map.type
  relation_fresh : ∀ r ∈ map.relations, ∀ c ∈ map.columns, c.property ≠ r.property
  localKey : ∀ r ∈ map.relations, ∃ c ∈ map.columns, c.property = r.localKey
  slot : ∀ r ∈ map.relations, EntityType.hasSlot map.prototype r.property r.kind = true
  generatedKey : EntityType.RoleFits map.generatedKey map.columns EntityType.FitsGenerated
  softDelete : EntityType.RoleFits map.softDelete map.columns EntityType.FitsSoftDelete
  autoTimestamp : EntityType.RoleFits map.autoTimestamp map.columns EntityType.FitsTimestamp

namespace EntityType

/-- The column that a role points at is fit for it, if the columns that are marked are. -/
theorem roleFits_of_pointsAt {prototype : Record} {ds : List ColumnDeclaration}
    {columns : List ColumnDef} {marked : ColumnDeclaration → Bool} {fit : Value → Prop}
    {role : Option Nat} (hdeclared : Declares prototype ds columns)
    (hmarks : MarksOne prototype ds marked fit) (hrole : PointsAt role ds marked) :
    RoleFits role columns fit := by
  intro i hi
  obtain ⟨d, hd, hmarked⟩ := (hrole i).mp hi
  obtain ⟨c, hc, v, hv, rfl⟩ := hdeclared.exists_getElem? hd
  obtain ⟨w, hw, fits⟩ := hmarks.fits d (List.mem_of_getElem? hd) hmarked
  cases hv.symm.trans hw
  exact ⟨_, hc, fits⟩

theorem derived_of_derive {e : EntityType} {map : EntityMap} (h : e.derive = .ok map) :
    map.Derived := by
  obtain ⟨fit, -, selectable, related⟩ := exists_derive_iff.mp ⟨map, h⟩
  obtain ⟨declared, relations_eq, -, -, -, generatedKey, softDelete, autoTimestamp⟩ :=
    indexes_of_derive h
  obtain ⟨draft, -, -, relations, -, rfl⟩ := derive_eq_ok.mp h
  have mem_relations {r : RelationDef} (hr : r ∈ relations) :
      ∃ r' ∈ e.declaration.relations, r'.toRelation = r :=
    List.mem_map.mp (relations_eq ▸ hr)
  exact {
    columns_nodup := declared.properties_eq ▸ fit.nodup
    relations_nodup := by
      rw [relations_eq, List.map_map]
      exact related.nodup
    keys_eq := rfl
    selectable := fun c hc hkey => by
      obtain ⟨d, hd, v, -, rfl⟩ := declared.exists_of_mem hc
      exact selectable d (List.mem_filter.mpr ⟨hd, hkey⟩)
    field_of_column := fun c hc => by
      obtain ⟨d, -, v, hv, rfl⟩ := declared.exists_of_mem hc
      exact hv
    type_eq := rfl
    relation_fresh := fun r hr c hc equal => by
      obtain ⟨r', hr', rfl⟩ := mem_relations hr
      refine related.fresh r' hr' ?_
      rw [← declared.properties_eq]
      exact List.mem_map.mpr ⟨c, hc, equal⟩
    localKey := fun r hr => by
      obtain ⟨r', hr', rfl⟩ := mem_relations hr
      have known := related.localKey r' hr'
      rwa [← declared.properties_eq, List.mem_map] at known
    slot := fun r hr => by
      obtain ⟨r', hr', rfl⟩ := mem_relations hr
      exact hasSlot_iff.mpr (related.slot r' hr')
    generatedKey := roleFits_of_pointsAt declared fit.generated generatedKey
    softDelete := roleFits_of_pointsAt declared fit.softDelete softDelete
    autoTimestamp := roleFits_of_pointsAt declared fit.autoTimestamp autoTimestamp }

end EntityType

namespace Model

theorem exists_of_entityMap {m : Model} {type : String} {map : EntityMap}
    (h : m.entityMap type = .ok map) :
    ∃ e, m.find? type = some e ∧ e.derive = .ok map := by
  unfold entityMap at h
  cases hfind : m.find? type with
  | none =>
      rw [hfind] at h
      cases h
  | some e =>
      rw [hfind] at h
      simp only at h
      split at h
      next map' hderive =>
        cases h
        exact ⟨e, rfl, hderive⟩
      next => cases h

theorem derived_of_entityMap {m : Model} {type : String} {map : EntityMap}
    (h : m.entityMap type = .ok map) : map.Derived := by
  obtain ⟨e, -, hderive⟩ := exists_of_entityMap h
  exact EntityType.derived_of_derive hderive

/-- The map of a type names that type. -/
theorem type_of_entityMap {m : Model} {type : String} {map : EntityMap}
    (h : m.entityMap type = .ok map) : map.type = type := by
  obtain ⟨e, hfind, hderive⟩ := exists_of_entityMap h
  have named : e.name = type := by simpa using List.find?_some hfind
  obtain ⟨-, -, -, -, -, rfl⟩ := EntityType.derive_eq_ok.mp hderive
  exact named

end Model

/-- An item is found by its name, if no other item has that name. -/
theorem find?_of_nodup {name : α → String} {xs : List α} (hnodup : (xs.map name).Nodup) {x : α}
    (hx : x ∈ xs) : xs.find? (name · == name x) = some x := by
  obtain ⟨y, hy⟩ := Option.isSome_iff_exists.mp
    (List.find?_isSome (p := (name · == name x)).mpr ⟨x, hx, beq_self_eq_true _⟩)
  have named : name y = name x := by simpa using List.find?_some hy
  rw [hy, List.inj_on_of_nodup_map hnodup (List.mem_of_find?_eq_some hy) hx named]

/-- What is found by a property has that property. -/
theorem EntityMap.property_of_relation? {map : EntityMap} {property : String} {r : RelationDef}
    (h : map.relation? property = some r) : r.property = property := by
  simpa using List.find?_some h

namespace EntityMap.Derived

variable {map : EntityMap}

/-- A relation is found by its property. -/
theorem relation?_of_mem (h : map.Derived) {r : RelationDef} (hr : r ∈ map.relations) :
    map.relation? r.property = some r :=
  find?_of_nodup h.relations_nodup hr

theorem relation?_eq_some (h : map.Derived) {property : String} {r : RelationDef} :
    map.relation? property = some r ↔ r ∈ map.relations ∧ r.property = property := by
  constructor
  · intro hr
    exact ⟨List.mem_of_find?_eq_some hr, property_of_relation? hr⟩
  · rintro ⟨hr, rfl⟩
    exact h.relation?_of_mem hr

theorem exists_of_role {role : Option Nat} {fit : Value → Prop}
    (hfits : EntityType.RoleFits role map.columns fit) {c : ColumnDef}
    (hc : role.bind (map.columns[·]?) = some c) : c ∈ map.columns ∧ fit c.value := by
  obtain ⟨i, hi, hci⟩ := Option.bind_eq_some_iff.mp hc
  obtain ⟨c', hc', hfit⟩ := hfits i hi
  rw [hci] at hc'
  cases hc'
  exact ⟨List.mem_of_getElem? hci, hfit⟩

/-- A key column is one of the columns, and can be selected. -/
theorem mem_of_keyColumns (h : map.Derived) {c : ColumnDef} (hc : c ∈ map.keyColumns) :
    c ∈ map.columns ∧ c.selectable = true := by
  obtain ⟨i, hi, hci⟩ := List.mem_filterMap.mp hc
  rw [h.keys_eq] at hi
  obtain ⟨⟨c', i'⟩, hmem, rfl⟩ := List.mem_map.mp hi
  obtain ⟨hzip, hkey⟩ := List.mem_filter.mp hmem
  -- a key position is the position of a column that is a key
  have here := List.mk_mem_zipIdx_iff_getElem?.mp hzip
  rw [hci] at here
  cases here
  have hcolumn := List.mem_of_getElem? hci
  exact ⟨hcolumn, h.selectable c hcolumn hkey⟩

/-- A column is found by its property. -/
theorem eq_of_property (h : map.Derived) {c c' : ColumnDef} (hc : c ∈ map.columns)
    (hc' : c' ∈ map.columns) (equal : c.property = c'.property) : c = c' :=
  List.inj_on_of_nodup_map h.columns_nodup hc hc' equal

/-- Two roles that no value fits at once are taken by different columns. -/
theorem property_ne_of_roles (h : map.Derived) {role role' : Option Nat} {fit fit' : Value → Prop}
    (hfits : EntityType.RoleFits role map.columns fit)
    (hfits' : EntityType.RoleFits role' map.columns fit') (apart : ∀ v, fit v → ¬ fit' v)
    {c c' : ColumnDef} (hc : role.bind (map.columns[·]?) = some c)
    (hc' : role'.bind (map.columns[·]?) = some c') : c'.property ≠ c.property := by
  intro equal
  obtain ⟨hmem, hfit⟩ := exists_of_role hfits hc
  obtain ⟨hmem', hfit'⟩ := exists_of_role hfits' hc'
  rw [h.eq_of_property hmem' hmem equal] at hfit'
  exact apart c.value hfit hfit'

/-- The auto timestamp is not the generated key. -/
theorem autoTimestamp_ne (h : map.Derived) {key time : ColumnDef}
    (hkey : map.generatedKeyColumn? = some key) (htime : map.autoTimestampColumn? = some time) :
    time.property ≠ key.property :=
  h.property_ne_of_roles h.generatedKey h.autoTimestamp
    (fun v hkey htime => by cases v <;> first | exact hkey.elim | exact htime.elim) hkey htime

/-- The mark of deletion is neither the generated key nor the auto timestamp. -/
theorem softDelete_ne (h : map.Derived) {flag c : ColumnDef}
    (hflag : map.softDeleteColumn? = some flag)
    (hc : map.generatedKeyColumn? = some c ∨ map.autoTimestampColumn? = some c) :
    c.property ≠ flag.property := by
  -- the mark is a truth value, which neither a key nor a time can be
  rcases hc with hc | hc
  · exact h.property_ne_of_roles h.softDelete h.generatedKey
      (fun v hmark hkey => by cases v <;> first | exact hmark.elim | exact hkey.elim) hflag hc
  · exact h.property_ne_of_roles h.softDelete h.autoTimestamp
      (fun v hmark htime => by cases v <;> first | exact hmark.elim | exact htime.elim) hflag hc

end EntityMap.Derived

end GraphStore
