import GraphStore.Conformance.Library
import GraphStore.Proofs.Outcome
import Mathlib.Data.List.Nodup

/-!
# Declarations that are accepted

Whether a declaration fits its record type is said of the declaration and the prototype alone
(`EntityType.Valid`). A map is derived from exactly the declarations that fit, and it is an index of
them (`EntityType.Indexes`): columns and relations stand in the order in which they are declared,
and the keys and roles are the positions of the columns that are marked (`derives_valid`).

Columns are added one after another. What holds of the columns so far, and of the draft that they
have given, is kept with one more column (`columnsFit_concat`, `Draft.Follows.concat`), and so it
holds of all of them (`exists_columns_iff`).
-/

set_option autoImplicit false

namespace GraphStore

/-! ## Declarations that fit -/

def ColumnDeclaration.isKey (d : ColumnDeclaration) : Bool := d.role != .none

def ColumnDeclaration.isGenerated (d : ColumnDeclaration) : Bool := d.role == .generated

theorem ColumnDeclaration.isKey_of_isGenerated {d : ColumnDeclaration} (h : d.isGenerated = true) :
    d.isKey = true := by
  rw [isKey, beq_iff_eq.mp h]
  rfl

/-- The declared parts of the primary key. -/
def Declaration.keys (d : Declaration) : List ColumnDeclaration := d.columns.filter (·.isKey)

namespace EntityType

/-- What a generated key can be in a new record. -/
def FitsGenerated : Value → Prop
  | .uuid _ => True
  | .int32 none => True
  | _ => False

def FitsSoftDelete : Value → Prop
  | .boolean _ => True
  | _ => False

def FitsTimestamp : Value → Prop
  | .timestamp _ => True
  | _ => False

/-- At most one column is marked, and a new record holds a value there that is fit for it. -/
structure MarksOne (prototype : Record) (columns : List ColumnDeclaration)
    (marked : ColumnDeclaration → Bool) (fit : Value → Prop) : Prop where
  once : columns.Pairwise fun d d' => ¬ (marked d = true ∧ marked d' = true)
  fits : ∀ d ∈ columns, marked d = true → ∃ v, prototype.field? d.property = some v ∧ fit v

/-- The columns are different fields, with marks that fit them. -/
structure ColumnsFit (prototype : Record) (columns : List ColumnDeclaration) : Prop where
  nodup : (columns.map (·.property)).Nodup
  field : ∀ d ∈ columns, ∃ v, prototype.field? d.property = some v
  generated : MarksOne prototype columns (·.isGenerated) FitsGenerated
  softDelete : MarksOne prototype columns (·.softDelete) FitsSoftDelete
  autoTimestamp : MarksOne prototype columns (·.autoTimestamp) FitsTimestamp

/-- The relations are different slots and no columns, and each has a column for its local key. -/
structure RelationsFit (prototype : Record) (columns : List String)
    (relations : List RelationDeclaration) : Prop where
  nodup : (relations.map (·.property)).Nodup
  fresh : ∀ r ∈ relations, r.property ∉ columns
  slot : ∀ r ∈ relations, ∃ s, prototype.slot? r.property = some s ∧ s.kind = r.kind
  localKey : ∀ r ∈ relations, r.localKey ∈ columns

/-- The declaration fits the record type. A key that the database counts up is the only one, and
keys can be selected. -/
structure Valid (e : EntityType) : Prop where
  columns : ColumnsFit e.prototype e.declaration.columns
  countedAlone : ∀ d ∈ e.declaration.columns, d.isGenerated = true →
    e.prototype.field? d.property = some (.int32 none) → e.declaration.keys.length ≤ 1
  selectable : ∀ d ∈ e.declaration.keys, d.selectable = true
  relations : RelationsFit e.prototype (e.declaration.columns.map (·.property))
    e.declaration.relations

end EntityType

/-! ## Indexes of declarations -/

/-- The column that is declared, when a new record holds `v` there. -/
def ColumnDeclaration.toColumn (d : ColumnDeclaration) (v : Value) : ColumnDef where
  property := d.property
  name := d.name.getD d.property
  value := v
  nullable := d.role = .none && (d.nullable || v.isNull)
  role := d.role
  updatable := d.updatable
  selectable := d.selectable

def RelationDeclaration.toRelation (r : RelationDeclaration) : RelationDef :=
  ⟨r.property, r.kind, r.target, r.localKey, r.foreignKey, r.nullable⟩

namespace EntityType

/-- The columns that are declared, in the same order. -/
def Declares (prototype : Record) (ds : List ColumnDeclaration) (columns : List ColumnDef) : Prop :=
  List.Forall₂ (fun d c => ∃ v, prototype.field? d.property = some v ∧ c = d.toColumn v) ds columns

/-- The position is that of the marked column, if there is one. -/
def PointsAt (position : Option Nat) (columns : List ColumnDeclaration)
    (marked : ColumnDeclaration → Bool) : Prop :=
  ∀ i, position = some i ↔ ∃ d, columns[i]? = some d ∧ marked d = true

/-- The map is an index of the declaration. -/
structure Indexes (e : EntityType) (map : EntityMap) : Prop where
  columns : Declares e.prototype e.declaration.columns map.columns
  relations_eq : map.relations = e.declaration.relations.map (·.toRelation)
  keys_increasing : map.keys.Pairwise (· < ·)
  mem_keys : ∀ i, i ∈ map.keys ↔ ∃ d, e.declaration.columns[i]? = some d ∧ d.isKey = true
  generatedKey_mem : ∀ i, map.generatedKey = some i → i ∈ map.keys
  generatedKey : PointsAt map.generatedKey e.declaration.columns (·.isGenerated)
  softDelete : PointsAt map.softDelete e.declaration.columns (·.softDelete)
  autoTimestamp : PointsAt map.autoTimestamp e.declaration.columns (·.autoTimestamp)

variable {prototype : Record} {ds : List ColumnDeclaration} {d : ColumnDeclaration}
  {marked : ColumnDeclaration → Bool} {fit : Value → Prop} {table : String}
  {draft draft' : Draft} {columns : List ColumnDef} {v : Value}

/-! ## Marks -/

theorem checkGenerated_eq_ok {property : String} :
    checkGenerated property v = .ok () ↔ FitsGenerated v := by
  unfold checkGenerated FitsGenerated
  split <;> simp

theorem checkSoftDelete_eq_ok {property : String} :
    checkSoftDelete property v = .ok () ↔ FitsSoftDelete v := by
  unfold checkSoftDelete FitsSoftDelete
  split <;> simp

theorem checkTimestamp_eq_ok {property : String} :
    checkTimestamp property v = .ok () ↔ FitsTimestamp v := by
  unfold checkTimestamp FitsTimestamp
  split <;> simp

/-- A role can be claimed while it is free. -/
theorem claimRole_eq_ok {taken role : Option Nat} {position : Nat} {marker : Marker} :
    claimRole taken position marker table = .ok role ↔ taken = none ∧ role = some position := by
  unfold claimRole
  cases taken with
  | none => simp [eq_comm]
  | some i => simp

/-- What becomes of a role with one more column: the column takes it if it is marked. -/
def Claims (isMarked : Bool) (fits : Prop) (position : Nat) (taken role : Option Nat) : Prop :=
  (isMarked = true ∧ fits ∧ taken = none ∧ role = some position) ∨
    (isMarked = false ∧ role = taken)

section Claims

variable {isMarked : Bool} {fits : Prop} {position : Nat} {taken role : Option Nat}

/-- A mark is checked before its role is claimed. -/
theorem claims_iff {chosen : Prop} (hchosen : chosen ↔ isMarked = true)
    {check : Except DeclarationFault PUnit} (hfits : check = .ok ⟨⟩ ↔ fits) {marker : Marker} :
    ((chosen ∧ check = .ok ⟨⟩ ∧ claimRole taken position marker table = .ok role) ∨
      (¬ chosen ∧ (pure taken : Except DeclarationFault (Option Nat)) = .ok role)) ↔
      Claims isMarked fits position taken role := by
  have kept : (pure taken : Except DeclarationFault (Option Nat)) = .ok role ↔ role = taken :=
    Except.ok.injEq taken role ▸ eq_comm
  rw [Claims, hchosen, hfits, claimRole_eq_ok, kept, Bool.not_eq_true]

theorem exists_claims : (∃ role, Claims isMarked fits position taken role) ↔
    (isMarked = true → fits ∧ taken = none) := by
  cases isMarked <;> simp [Claims]

end Claims

/-- One more column may be marked if it is fit for that and no other is marked. -/
theorem marksOne_concat (hv : prototype.field? d.property = some v) :
    MarksOne prototype (ds ++ [d]) marked fit ↔ MarksOne prototype ds marked fit ∧
      (marked d = true → fit v ∧ ∀ d' ∈ ds, marked d' = false) := by
  constructor
  · rintro ⟨once, fits⟩
    obtain ⟨before, -, apart⟩ := List.pairwise_append.mp once
    have last := List.mem_singleton_self d
    refine ⟨⟨before, fun d' hd' => fits d' (List.mem_append_left _ hd')⟩, fun hd => ⟨?_, ?_⟩⟩
    · obtain ⟨w, hw, hfit⟩ := fits d (List.mem_append_right _ last) hd
      cases hv.symm.trans hw
      exact hfit
    · intro d' hd'
      rw [← Bool.not_eq_true]
      exact fun hmarked => apart d' hd' d last ⟨hmarked, hd⟩
  · rintro ⟨⟨once, fits⟩, last⟩
    refine ⟨List.pairwise_append.mpr ⟨once, List.pairwise_singleton _ d, ?_⟩, fun d' hd' => ?_⟩
    · rintro d' hd' e he ⟨hmarked, hlast⟩
      rw [List.mem_singleton.mp he] at hlast
      rw [(last hlast).2 d' hd'] at hmarked
      cases hmarked
    · rcases List.mem_append.mp hd' with hd' | hd'
      · exact fits d' hd'
      · rw [List.mem_singleton.mp hd']
        exact fun hmarked => ⟨v, hv, (last hmarked).1⟩

theorem nodup_map_concat {α β : Type} {f : α → β} {xs : List α} {x : α} :
    ((xs ++ [x]).map f).Nodup ↔ (xs.map f).Nodup ∧ f x ∉ xs.map f := by
  rw [List.map_append, List.map_singleton, List.nodup_append]
  simp

/-- The column is another field than those before it, with marks that fit it and that none of them
has. -/
def FitsBehind (prototype : Record) (ds : List ColumnDeclaration) (d : ColumnDeclaration) : Prop :=
  d.property ∉ ds.map (·.property) ∧
  ∃ v, prototype.field? d.property = some v ∧
    (d.isGenerated = true → FitsGenerated v ∧ ∀ d' ∈ ds, d'.isGenerated = false) ∧
    (d.softDelete = true → FitsSoftDelete v ∧ ∀ d' ∈ ds, d'.softDelete = false) ∧
    (d.autoTimestamp = true → FitsTimestamp v ∧ ∀ d' ∈ ds, d'.autoTimestamp = false)

theorem columnsFit_nil : ColumnsFit prototype [] := by
  have none {marked fit} : MarksOne prototype [] marked fit := ⟨.nil, by simp⟩
  exact ⟨List.nodup_nil, by simp, none, none, none⟩

theorem columnsFit_concat :
    ColumnsFit prototype (ds ++ [d]) ↔ ColumnsFit prototype ds ∧ FitsBehind prototype ds d := by
  constructor
  · rintro ⟨distinct, field, generated, softDelete, autoTimestamp⟩
    obtain ⟨v, hv⟩ := field d (List.mem_append_right _ (List.mem_singleton_self d))
    obtain ⟨generated, hg⟩ := (marksOne_concat hv).mp generated
    obtain ⟨softDelete, hr⟩ := (marksOne_concat hv).mp softDelete
    obtain ⟨autoTimestamp, ht⟩ := (marksOne_concat hv).mp autoTimestamp
    obtain ⟨distinct, fresh⟩ := nodup_map_concat.mp distinct
    exact ⟨⟨distinct, fun d' hd' => field d' (List.mem_append_left _ hd'), generated, softDelete,
      autoTimestamp⟩, fresh, v, hv, hg, hr, ht⟩
  · rintro ⟨⟨distinct, field, generated, softDelete, autoTimestamp⟩, fresh, v, hv, hg, hr, ht⟩
    refine ⟨nodup_map_concat.mpr ⟨distinct, fresh⟩, fun d' hd' => ?_,
      (marksOne_concat hv).mpr ⟨generated, hg⟩, (marksOne_concat hv).mpr ⟨softDelete, hr⟩,
      (marksOne_concat hv).mpr ⟨autoTimestamp, ht⟩⟩
    rcases List.mem_append.mp hd' with hd' | hd'
    · exact field d' hd'
    · exact ⟨v, List.mem_singleton.mp hd' ▸ hv⟩

theorem pointsAt_nil : PointsAt none [] marked := by
  intro i
  simp

/-- What points at no column has found none that is marked. -/
theorem PointsAt.eq_none_iff {position : Option Nat} (h : PointsAt position ds marked) :
    position = none ↔ ∀ d ∈ ds, marked d = false := by
  rw [Option.eq_none_iff_forall_ne_some]
  constructor
  · intro none d hd
    obtain ⟨i, hi⟩ := List.getElem?_of_mem hd
    rw [← Bool.not_eq_true]
    exact fun hmarked => none i ((h i).mpr ⟨d, hi, hmarked⟩)
  · intro unmarked i hi
    obtain ⟨d, hd, hmarked⟩ := (h i).mp hi
    rw [unmarked d (List.mem_of_getElem? hd)] at hmarked
    cases hmarked

theorem PointsAt.concat {taken role : Option Nat} {fits : Prop} (h : PointsAt taken ds marked)
    (hrole : Claims (marked d) fits ds.length taken role) : PointsAt role (ds ++ [d]) marked := by
  intro i
  have found : (∃ d', (ds ++ [d])[i]? = some d' ∧ marked d' = true) ↔
      (∃ d', ds[i]? = some d' ∧ marked d' = true) ∨ (i = ds.length ∧ marked d = true) := by
    rcases Nat.lt_trichotomy i ds.length with hi | rfl | hi
    · rw [List.getElem?_append_left hi]
      exact (or_iff_left fun hlast => Nat.ne_of_lt hi hlast.1).symm
    · simp
    · rw [List.getElem?_eq_none (by simp; omega), List.getElem?_eq_none (Nat.le_of_lt hi)]
      simp [Nat.ne_of_gt hi]
  rw [found, ← h i]
  rcases hrole with ⟨hmarked, -, rfl, rfl⟩ | ⟨hmarked, rfl⟩
  · simp [hmarked, eq_comm]
  · simp [hmarked]

/-! ## Columns that are declared -/

namespace Declares

/-- What a column has by its declaration. -/
theorem map_eq (h : Declares prototype ds columns) {α : Type} {f : ColumnDef → α}
    {g : ColumnDeclaration → α} (hfg : ∀ d v, f (ColumnDeclaration.toColumn d v) = g d) :
    columns.map f = ds.map g :=
  (map_eq_map_iff_forall₂.mpr (h.imp fun d _ ⟨v, _, hc⟩ => (hc ▸ hfg d v).symm)).symm

theorem properties_eq (h : Declares prototype ds columns) :
    columns.map (·.property) = ds.map (·.property) :=
  h.map_eq fun _ _ => rfl

/-- A column stands where a declaration stands that is marked like it. -/
theorem exists_getElem?_iff (h : Declares prototype ds columns) {f : ColumnDef → Bool}
    {g : ColumnDeclaration → Bool} (hfg : ∀ d v, f (ColumnDeclaration.toColumn d v) = g d)
    (i : Nat) :
    (∃ c, columns[i]? = some c ∧ f c = true) ↔ ∃ d, ds[i]? = some d ∧ g d = true := by
  have marks := congrArg (·[i]?) (h.map_eq hfg)
  simp only [List.getElem?_map] at marks
  rw [← Option.map_eq_some_iff, ← Option.map_eq_some_iff, marks]

theorem exists_getElem? (h : Declares prototype ds columns) {i : Nat} (hd : ds[i]? = some d) :
    ∃ c, columns[i]? = some c ∧ ∃ v, prototype.field? d.property = some v ∧ c = d.toColumn v := by
  obtain ⟨hi, rfl⟩ := List.getElem?_eq_some_iff.mp hd
  exact ⟨_, List.getElem?_eq_getElem (h.length_eq ▸ hi), (List.forall₂_iff_get.mp h).2 i hi _⟩

theorem exists_of_mem (h : Declares prototype ds columns) {c : ColumnDef} (hc : c ∈ columns) :
    ∃ d ∈ ds, ∃ v, prototype.field? d.property = some v ∧ c = d.toColumn v :=
  exists_of_mem_forall₂ h hc

theorem exists_toColumn_mem (h : Declares prototype ds columns) (hd : d ∈ ds) :
    ∃ v, prototype.field? d.property = some v ∧ d.toColumn v ∈ columns := by
  obtain ⟨c, hc, v, hv, rfl⟩ := exists_of_mem_forall₂ h.flip hd
  exact ⟨v, hv, hc⟩

end Declares

/-! ## Adding columns -/

/-- What one more column does to a draft. -/
theorem addColumn_eq_ok : addColumn table prototype draft d = .ok draft' ↔
    d.property ∉ draft.columns.map (·.property) ∧
    ∃ v, prototype.field? d.property = some v ∧
      Claims d.isGenerated (FitsGenerated v) draft.columns.length draft.generatedKey
        draft'.generatedKey ∧
      Claims d.softDelete (FitsSoftDelete v) draft.columns.length draft.softDelete
        draft'.softDelete ∧
      Claims d.autoTimestamp (FitsTimestamp v) draft.columns.length draft.autoTimestamp
        draft'.autoTimestamp ∧
      draft'.columns = draft.columns ++ [d.toColumn v] := by
  have fresh : ¬ (draft.columns.any fun c => c.property == d.property) = true ↔
      d.property ∉ draft.columns.map (·.property) := by simp
  unfold addColumn
  rw [check_eq_ok, fresh]
  refine and_congr_right fun _ => ?_
  cases hfield : prototype.field? d.property with
  | none => exact iff_of_false nofun fun ⟨v, hv, _⟩ => nomatch hv
  | some v =>
      have generated : d.role = .generated ↔ d.isGenerated = true := by
        simp [ColumnDeclaration.isGenerated]
      have here : (pure v : Except DeclarationFault Value) = .ok v := rfl
      simp only [here, ok_bind, choice_eq_ok, Option.some.injEq, exists_eq_left',
        claims_iff generated checkGenerated_eq_ok, claims_iff Iff.rfl checkSoftDelete_eq_ok,
        claims_iff Iff.rfl checkTimestamp_eq_ok]
      constructor
      · rintro ⟨g, hg, r, hr, t, ht, h⟩
        cases h
        exact ⟨hg, hr, ht, rfl⟩
      · rintro ⟨hg, hr, ht, hcolumns⟩
        refine ⟨_, hg, _, hr, _, ht, congrArg Except.ok ?_⟩
        cases draft'
        cases hcolumns
        rfl

/-- The draft that the columns have given. -/
structure Draft.Follows (prototype : Record) (ds : List ColumnDeclaration) (draft : Draft) :
    Prop where
  columns : Declares prototype ds draft.columns
  generatedKey : PointsAt draft.generatedKey ds (·.isGenerated)
  softDelete : PointsAt draft.softDelete ds (·.softDelete)
  autoTimestamp : PointsAt draft.autoTimestamp ds (·.autoTimestamp)

theorem follows_nil : ({} : Draft).Follows prototype [] :=
  ⟨.nil, pointsAt_nil, pointsAt_nil, pointsAt_nil⟩

theorem Draft.Follows.concat (h : draft.Follows prototype ds)
    (hadd : addColumn table prototype draft d = .ok draft') :
    draft'.Follows prototype (ds ++ [d]) := by
  obtain ⟨-, v, hv, hg, hr, ht, hcolumns⟩ := addColumn_eq_ok.mp hadd
  rw [← h.columns.length_eq] at hg hr ht
  exact {
    columns := hcolumns ▸ List.rel_append h.columns (.cons ⟨v, hv, rfl⟩ .nil)
    generatedKey := h.generatedKey.concat hg
    softDelete := h.softDelete.concat hr
    autoTimestamp := h.autoTimestamp.concat ht }

/-- A column can be added to the draft if it fits behind the columns of the draft. -/
theorem Draft.Follows.exists_addColumn_iff (h : draft.Follows prototype ds) :
    (∃ draft', addColumn table prototype draft d = .ok draft') ↔ FitsBehind prototype ds d := by
  rw [FitsBehind, ← h.columns.properties_eq, ← h.generatedKey.eq_none_iff,
    ← h.softDelete.eq_none_iff, ← h.autoTimestamp.eq_none_iff]
  constructor
  · rintro ⟨draft', hadd⟩
    obtain ⟨fresh, v, hv, hg, hr, ht, -⟩ := addColumn_eq_ok.mp hadd
    exact ⟨fresh, v, hv, exists_claims.mp ⟨_, hg⟩, exists_claims.mp ⟨_, hr⟩,
      exists_claims.mp ⟨_, ht⟩⟩
  · rintro ⟨fresh, v, hv, hg, hr, ht⟩
    obtain ⟨g, hg⟩ := exists_claims.mpr hg
    obtain ⟨r, hr⟩ := exists_claims.mpr hr
    obtain ⟨t, ht⟩ := exists_claims.mpr ht
    exact ⟨⟨_, g, r, t⟩, addColumn_eq_ok.mpr ⟨fresh, v, hv, hg, hr, ht, rfl⟩⟩

/-- All columns can be added if they fit, and give a draft that follows them. -/
theorem exists_columns_iff (table : String) (prototype : Record) (ds : List ColumnDeclaration) :
    ((∃ draft, ds.foldlM (addColumn table prototype) {} = .ok draft) ↔ ColumnsFit prototype ds) ∧
    ∀ draft, ds.foldlM (addColumn table prototype) {} = .ok draft → draft.Follows prototype ds :=
  exists_foldlM_iff (R := fun ds (draft : Draft) => draft.Follows prototype ds) columnsFit_nil
    columnsFit_concat follows_nil (fun h => h.exists_addColumn_iff) (fun h hadd => h.concat hadd) ds

/-! ## Keys -/

theorem mem_keyPositions {i : Nat} :
    i ∈ keyPositions columns ↔ ∃ c, columns[i]? = some c ∧ c.isKey = true := by
  simp only [keyPositions, List.mem_map, List.mem_filter, Prod.exists,
    List.mk_mem_zipIdx_iff_getElem?]
  constructor
  · rintro ⟨c, i, h, rfl⟩
    exact ⟨c, h⟩
  · rintro ⟨c, h⟩
    exact ⟨c, i, h, rfl⟩

theorem keyPositions_increasing (columns : List ColumnDef) :
    (keyPositions columns).Pairwise (· < ·) := by
  have positions : (keyPositions columns).Sublist (columns.zipIdx.map (·.2)) :=
    List.filter_sublist.map _
  rw [List.zipIdx_map_snd, ← List.range_eq_range'] at positions
  exact List.pairwise_lt_range.sublist positions

theorem length_keyPositions (columns : List ColumnDef) :
    (keyPositions columns).length = columns.countP (·.isKey) := by
  rw [keyPositions, List.length_map, ← List.countP_eq_length_filter]
  conv_rhs => rw [← List.zipIdx_map_fst 0 columns, List.countP_map]
  rfl

/-- A generated key is counted by the database if it is an integer. -/
theorem isCounted_toColumn (hfit : d.isGenerated = true → FitsGenerated v) :
    (d.toColumn v).isCounted = true ↔ d.isGenerated = true ∧ v = .int32 none := by
  change (d.isGenerated && _) = true ↔ _
  rw [Bool.and_eq_true]
  refine and_congr_right fun hd => ?_
  have fits := hfit hd
  unfold FitsGenerated at fits
  split at fits
  · simp [ColumnDeclaration.toColumn]
  · simp [ColumnDeclaration.toColumn]
  · exact fits.elim

theorem checkKeys_eq_ok : checkKeys columns = .ok () ↔
    (∀ c ∈ columns, c.isCounted = true → (keyPositions columns).length ≤ 1) ∧
      ∀ c ∈ columns, c.isKey = true → c.selectable = true := by
  have alone : (∀ c ∈ columns, c.isCounted = true → (keyPositions columns).length ≤ 1) ↔
      (1 < (keyPositions columns).length → columns.find? (·.isCounted) = none) := by
    rw [List.find?_eq_none]
    constructor
    · intro h several c hc hcounted
      exact absurd (h c hc hcounted) (Nat.not_le_of_gt several)
    · intro h c hc hcounted
      by_contra several
      exact h (Nat.lt_of_not_le several) c hc hcounted
  have shown : (∀ c ∈ columns, c.isKey = true → c.selectable = true) ↔
      columns.find? (fun c => c.isKey && !c.selectable) = none := by
    rw [List.find?_eq_none]
    simp
  rw [alone, shown]
  unfold checkKeys
  by_cases several : 1 < (keyPositions columns).length
  · cases columns.find? (·.isCounted) with
    | some c => exact iff_of_false (by rw [if_pos several]; nofun) fun h => nomatch h.1 several
    | none =>
        cases columns.find? (fun c => c.isKey && !c.selectable) with
        | some c => exact iff_of_false (by rw [if_pos several]; nofun) fun h => nomatch h.2
        | none => exact iff_of_true (by rw [if_pos several]; rfl) ⟨fun _ => rfl, rfl⟩
  · cases columns.find? (fun c => c.isKey && !c.selectable) with
    | some c => exact iff_of_false (by rw [if_neg several]; nofun) fun h => nomatch h.2
    | none => exact iff_of_true (by rw [if_neg several]; rfl) ⟨fun h => absurd h several, rfl⟩

/-- There are as many key positions as keys that are declared. -/
theorem Declares.length_keyPositions (h : Declares prototype ds columns) :
    (keyPositions columns).length = (ds.filter (·.isKey)).length := by
  have marks := congrArg (List.countP id)
    (h.map_eq (f := (·.isKey)) (g := (·.isKey)) fun _ _ => rfl)
  rwa [List.countP_map, List.countP_map, Function.id_comp, Function.id_comp,
    ← EntityType.length_keyPositions, List.countP_eq_length_filter] at marks

/-- What is asked of the keys, by their declaration. -/
theorem Declares.checkKeys_iff (h : Declares prototype ds columns)
    (hfit : MarksOne prototype ds (·.isGenerated) FitsGenerated) : checkKeys columns = .ok () ↔
    (∀ d ∈ ds, d.isGenerated = true → prototype.field? d.property = some (.int32 none) →
      (ds.filter (·.isKey)).length ≤ 1) ∧ ∀ d ∈ ds.filter (·.isKey), d.selectable = true := by
  have counted {d : ColumnDeclaration} {v : Value} (hd : d ∈ ds)
      (hv : prototype.field? d.property = some v) :
      (d.toColumn v).isCounted = true ↔ d.isGenerated = true ∧ v = .int32 none :=
    isCounted_toColumn fun hgenerated => by
      obtain ⟨w, hw, fits⟩ := hfit.fits d hd hgenerated
      cases hv.symm.trans hw
      exact fits
  rw [checkKeys_eq_ok, h.length_keyPositions]
  constructor
  · rintro ⟨alone, selectable⟩
    constructor
    · intro d hd hgenerated hnull
      obtain ⟨v, hv, hc⟩ := h.exists_toColumn_mem hd
      cases hnull.symm.trans hv
      exact alone _ hc ((counted hd hv).mpr ⟨hgenerated, rfl⟩)
    · intro d hd
      obtain ⟨hd, hkey⟩ := List.mem_filter.mp hd
      obtain ⟨v, -, hc⟩ := h.exists_toColumn_mem hd
      exact selectable _ hc hkey
  · rintro ⟨alone, selectable⟩
    constructor
    · intro c hc hcounted
      obtain ⟨d, hd, v, hv, rfl⟩ := h.exists_of_mem hc
      obtain ⟨hgenerated, rfl⟩ := (counted hd hv).mp hcounted
      exact alone d hd hgenerated hv
    · intro c hc hkey
      obtain ⟨d, hd, v, -, rfl⟩ := h.exists_of_mem hc
      exact selectable d (List.mem_filter.mpr ⟨hd, hkey⟩)

/-! ## Relations -/

section Relations

variable {rs : List RelationDeclaration} {r : RelationDeclaration}
  {relations relations' : List RelationDef}

theorem hasSlot_iff {property : String} {kind : RelationKind} :
    hasSlot prototype property kind = true ↔
      ∃ s, prototype.slot? property = some s ∧ s.kind = kind := by
  unfold hasSlot
  cases prototype.slot? property <;> simp

theorem addRelation_eq_ok : addRelation prototype columns relations r = .ok relations' ↔
    (r.property ∉ relations.map (·.property) ∧ r.property ∉ columns.map (·.property)) ∧
    (∃ s, prototype.slot? r.property = some s ∧ s.kind = r.kind) ∧
    r.localKey ∈ columns.map (·.property) ∧ relations' = relations ++ [r.toRelation] := by
  have fresh : ¬ (relations.any (fun r' => r'.property == r.property) ||
      columns.any fun c => c.property == r.property) = true ↔
      r.property ∉ relations.map (·.property) ∧ r.property ∉ columns.map (·.property) := by simp
  have known : ¬ (!columns.any fun c => c.property == r.localKey) = true ↔
      r.localKey ∈ columns.map (·.property) := by simp
  have slot : ¬ (!hasSlot prototype r.property r.kind) = true ↔
      ∃ s, prototype.slot? r.property = some s ∧ s.kind = r.kind := by
    rw [Bool.not_eq_true', Bool.not_eq_false, hasSlot_iff]
  unfold addRelation
  rw [check_eq_ok, check_eq_ok, check_eq_ok, fresh, slot, known]
  refine and_congr_right fun _ => and_congr_right fun _ => and_congr_right fun _ => ?_
  exact Except.ok.injEq (ε := DeclarationFault) (relations ++ [r.toRelation]) relations' ▸ eq_comm

/-- The relation is a slot and no column or relation before it, and has a column for its local
key. -/
def SlotBehind (prototype : Record) (properties : List String) (rs : List RelationDeclaration)
    (r : RelationDeclaration) : Prop :=
  (r.property ∉ rs.map (·.property) ∧ r.property ∉ properties) ∧
    (∃ s, prototype.slot? r.property = some s ∧ s.kind = r.kind) ∧ r.localKey ∈ properties

theorem relationsFit_concat {properties : List String} :
    RelationsFit prototype properties (rs ++ [r]) ↔
      RelationsFit prototype properties rs ∧ SlotBehind prototype properties rs r := by
  constructor
  · rintro ⟨distinct, fresh, slot, localKey⟩
    rw [List.forall_mem_append, List.forall_mem_singleton] at fresh slot localKey
    rw [nodup_map_concat] at distinct
    exact ⟨⟨distinct.1, fresh.1, slot.1, localKey.1⟩, ⟨distinct.2, fresh.2⟩, slot.2, localKey.2⟩
  · rintro ⟨⟨distinct, fresh, slot, localKey⟩, ⟨other, hfresh⟩, hslot, hlocal⟩
    constructor <;> simp only [List.forall_mem_append, List.forall_mem_singleton, nodup_map_concat]
    exacts [⟨distinct, other⟩, ⟨fresh, hfresh⟩, ⟨slot, hslot⟩, ⟨localKey, hlocal⟩]

theorem exists_relations_iff (prototype : Record) (columns : List ColumnDef)
    (rs : List RelationDeclaration) :
    ((∃ relations, rs.foldlM (addRelation prototype columns) [] = .ok relations) ↔
      RelationsFit prototype (columns.map (·.property)) rs) ∧
    ∀ relations, rs.foldlM (addRelation prototype columns) [] = .ok relations →
      relations = rs.map (·.toRelation) := by
  have named (rs : List RelationDeclaration) :
      (rs.map (·.toRelation)).map (·.property) = rs.map (·.property) := List.map_map
  refine exists_foldlM_iff (R := fun rs relations => relations = rs.map (·.toRelation))
    ⟨List.nodup_nil, by simp, by simp, by simp⟩ relationsFit_concat rfl ?_ ?_ rs
  · rintro rs r relations rfl
    simp only [addRelation_eq_ok, named, SlotBehind]
    exact ⟨fun ⟨_, fresh, slot, known, _⟩ => ⟨fresh, slot, known⟩,
      fun ⟨fresh, slot, known⟩ => ⟨_, fresh, slot, known, rfl⟩⟩
  · rintro rs r relations relations' rfl h
    rw [(addRelation_eq_ok.mp h).2.2.2, List.map_append]
    rfl

end Relations

/-! ## The map -/

/-- The steps by which a map is derived. -/
theorem derive_eq_ok {e : EntityType} {map : EntityMap} : e.derive = .ok map ↔
    ∃ draft, e.declaration.columns.foldlM (addColumn
        (e.declaration.table.getD (Text.shortTypeName e.name)) e.prototype) {} = .ok draft ∧
      checkKeys draft.columns = .ok () ∧
      ∃ relations, e.declaration.relations.foldlM (addRelation e.prototype draft.columns) [] =
        .ok relations ∧
      map = {
        type := e.name
        table := ⟨e.declaration.schema, e.declaration.table.getD (Text.shortTypeName e.name)⟩
        columns := draft.columns, keys := keyPositions draft.columns
        generatedKey := draft.generatedKey, softDelete := draft.softDelete
        autoTimestamp := draft.autoTimestamp, relations, prototype := e.prototype } := by
  unfold derive
  constructor
  · intro h
    obtain ⟨draft, hdraft, h₁⟩ := ok_of_bind h
    obtain ⟨_, hkeys, h₂⟩ := ok_of_bind h₁
    obtain ⟨relations, hrelations, h₃⟩ := ok_of_bind h₂
    exact ⟨draft, hdraft, hkeys, relations, hrelations, (Except.ok.inj h₃).symm⟩
  · rintro ⟨draft, hdraft, hkeys, relations, hrelations, rfl⟩
    simp only [hdraft, ok_bind, hkeys, hrelations]
    rfl

theorem exists_derive_iff {e : EntityType} : (∃ map, e.derive = .ok map) ↔ e.Valid := by
  obtain ⟨columnsAccepted, follows⟩ := exists_columns_iff
    (e.declaration.table.getD (Text.shortTypeName e.name)) e.prototype e.declaration.columns
  constructor
  · rintro ⟨map, h⟩
    obtain ⟨draft, hdraft, hkeys, relations, hrelations, -⟩ := derive_eq_ok.mp h
    have fit := columnsAccepted.mp ⟨draft, hdraft⟩
    have declared := (follows draft hdraft).columns
    obtain ⟨alone, selectable⟩ := (declared.checkKeys_iff fit.generated).mp hkeys
    have related := (exists_relations_iff _ _ _).1.mp ⟨relations, hrelations⟩
    exact ⟨fit, alone, selectable, declared.properties_eq ▸ related⟩
  · rintro ⟨fit, alone, selectable, related⟩
    obtain ⟨draft, hdraft⟩ := columnsAccepted.mpr fit
    have declared := (follows draft hdraft).columns
    rw [← declared.properties_eq] at related
    obtain ⟨relations, hrelations⟩ := (exists_relations_iff _ _ _).1.mpr related
    exact ⟨_, derive_eq_ok.mpr ⟨draft, hdraft,
      (declared.checkKeys_iff fit.generated).mpr ⟨alone, selectable⟩, relations, hrelations, rfl⟩⟩

theorem indexes_of_derive {e : EntityType} {map : EntityMap} (h : e.derive = .ok map) :
    e.Indexes map := by
  obtain ⟨draft, hdraft, -, relations, hrelations, rfl⟩ := derive_eq_ok.mp h
  obtain ⟨declared, generatedKey, softDelete, autoTimestamp⟩ :=
    (exists_columns_iff _ _ _).2 draft hdraft
  have keys : ∀ i, i ∈ keyPositions draft.columns ↔
      ∃ d, e.declaration.columns[i]? = some d ∧ d.isKey = true := fun i =>
    mem_keyPositions.trans (declared.exists_getElem?_iff (fun _ _ => rfl) i)
  exact {
    columns := declared
    relations_eq := (exists_relations_iff _ _ _).2 relations hrelations
    keys_increasing := keyPositions_increasing draft.columns
    mem_keys := keys
    generatedKey_mem := fun i hi => by
      obtain ⟨d, hd, hgenerated⟩ := (generatedKey i).mp hi
      exact (keys i).mpr ⟨d, hd, ColumnDeclaration.isKey_of_isGenerated hgenerated⟩
    generatedKey := generatedKey
    softDelete := softDelete
    autoTimestamp := autoTimestamp }

/-- **A map is derived from exactly the declarations that fit, and is an index of them.** -/
theorem derives_valid (e : EntityType) :
    ((∃ map, e.derive = .ok map) ↔ e.Valid) ∧ ∀ map, e.derive = .ok map → e.Indexes map :=
  ⟨exists_derive_iff, fun _ h => indexes_of_derive h⟩

/-- Books have a key that the database counts, a mark of deletion and the time of the last write;
they refer to an author and an editor, and have reviews. -/
theorem derives_valid_books : ∃ map, Conformance.Library.book.derive = .ok map ∧
    Conformance.Library.book.Valid ∧ Conformance.Library.book.Indexes map ∧ map.keys = [0] ∧
    map.generatedKey = some 0 ∧ map.softDelete = some 4 ∧ map.autoTimestamp = some 5 := by
  obtain ⟨map, h, positions⟩ : ∃ map, Conformance.Library.book.derive = .ok map ∧ map.keys = [0] ∧
      map.generatedKey = some 0 ∧ map.softDelete = some 4 ∧ map.autoTimestamp = some 5 :=
    ⟨_, rfl, rfl, rfl, rfl, rfl⟩
  obtain ⟨valid, indexes⟩ := derives_valid Conformance.Library.book
  exact ⟨map, h, valid.mp ⟨map, h⟩, indexes map h, positions⟩

end EntityType

end GraphStore
