import GraphStore.Predicate.Path
import GraphStore.Proofs.Model.Derived

/-!
# What paths name

A path is the name of a property, or of a relation and a property with a dot between them; names
have no dots in them, so that a path can be read in one way only. `Model.Names` says what a path
names, and it is what the path is resolved to (`resolve_eq_ok_iff`).
-/

set_option autoImplicit false

namespace GraphStore

/-! ## Segments -/

namespace Text

theorem cutAt_ne_nil (sep : Char) (cs : List Char) : cutAt sep cs ≠ [] := by
  cases cs with
  | nil => exact List.cons_ne_nil _ _
  | cons c cs =>
      rw [cutAt]
      split
      · exact List.cons_ne_nil _ _
      · split <;> exact List.cons_ne_nil _ _

theorem cutAt_eq_splitOn (sep : Char) (cs : List Char) : cutAt sep cs = cs.splitOn sep := by
  induction cs with
  | nil => rfl
  | cons c cs ih =>
      rw [cutAt, List.splitOn_cons_eq_if_modifyHead, ← ih]
      by_cases h : c = sep
      · rw [if_pos h, if_pos (beq_iff_eq.mpr h)]
      · rw [if_neg h, if_neg (by simpa using h)]
        cases hpieces : cutAt sep cs with
        | nil => exact absurd hpieces (cutAt_ne_nil sep cs)
        | cons piece pieces => rfl

/-- The separator stands between the pieces only. -/
theorem not_mem_of_mem_cutAt {sep : Char} {cs piece : List Char} (h : piece ∈ cutAt sep cs) :
    sep ∉ piece := by
  induction cs generalizing piece with
  | nil =>
      rw [List.mem_singleton.mp h]
      exact List.not_mem_nil
  | cons c cs ih =>
      rw [cutAt] at h
      split at h
      next =>
        rcases List.mem_cons.mp h with rfl | h
        · exact List.not_mem_nil
        · exact ih h
      next differs =>
        split at h
        next hpieces => exact absurd hpieces (cutAt_ne_nil sep cs)
        next first pieces hpieces =>
          rw [hpieces] at ih
          rcases List.mem_cons.mp h with rfl | h
          · rw [List.mem_cons, not_or]
            exact ⟨Ne.symm differs, ih List.mem_cons_self⟩
          · exact ih (List.mem_cons_of_mem _ h)

/-- The segments are texts without dots, with a dot between each two of them. -/
theorem pathSegments_eq_iff {path : String} {segments : List String} (h : segments ≠ []) :
    pathSegments path = segments ↔
      path = ".".intercalate segments ∧ ∀ s ∈ segments, '.' ∉ s.toList := by
  have dot : ".".toList = ['.'] := by decide
  rw [← String.toList_inj, String.toList_intercalate, dot]
  constructor
  · rintro rfl
    have pieces : (pathSegments path).map String.toList = cutAt '.' path.toList := by
      rw [pathSegments, List.map_map]
      exact List.map_id'' (fun cs => String.toList_ofList) _
    refine ⟨?_, fun s hs => ?_⟩
    · rw [pieces, cutAt_eq_splitOn, List.intercalate_splitOn]
    · have hpiece : s.toList ∈ (pathSegments path).map String.toList := List.mem_map_of_mem hs
      rw [pieces] at hpiece
      exact not_mem_of_mem_cutAt hpiece
  · rintro ⟨hpath, plain⟩
    rw [pathSegments, hpath, cutAt_eq_splitOn, List.splitOn_intercalate, List.map_map]
    · exact List.map_id'' (fun s => String.ofList_toList) _
    · simpa using plain
    · simpa using h

theorem pathSegments_eq_property {path property : String} :
    pathSegments path = [property] ↔ path = property ∧ '.' ∉ property.toList := by
  rw [pathSegments_eq_iff (List.cons_ne_nil _ _), List.forall_mem_singleton]
  rfl

theorem pathSegments_eq_related {path relation property : String} :
    pathSegments path = [relation, property] ↔
      path = relation ++ "." ++ property ∧ '.' ∉ relation.toList ∧ '.' ∉ property.toList := by
  rw [pathSegments_eq_iff (List.cons_ne_nil _ _), List.forall_mem_cons, List.forall_mem_singleton]
  rfl

end Text

/-! ## Names -/

namespace Model

variable {m : Model} {map : EntityMap} {path : String} {resolved : ResolvedPath}

/-- What a path names: a column of the entity by its property, or a column of the target of a
relation by the relation and the property. -/
inductive Names (m : Model) (map : EntityMap) : String → ResolvedPath → Prop where
  | property {property : String} {c : ColumnDef} (plain : '.' ∉ property.toList)
      (column : map.column? property = some c) :
      Names m map property ⟨c, ⟨none, map.table.name, c.name⟩⟩
  | related {relation property : String} {r : RelationDef} {target : EntityMap} {c : ColumnDef}
      (plain : '.' ∉ relation.toList) (plain' : '.' ∉ property.toList)
      (declared : map.relation? relation = some r) (target_eq : m.target r = .ok target)
      (column : target.column? property = some c) :
      Names m map (relation ++ "." ++ property) ⟨c, ⟨some r.property, target.table.name, c.name⟩⟩

/-- **A path is resolved to what it names**, and refused when it names nothing. -/
theorem resolve_eq_ok_iff : m.resolve map path = .ok resolved ↔ m.Names map path resolved := by
  constructor
  · intro h
    unfold resolve at h
    split at h
    next property segments =>
      obtain ⟨rfl, plain⟩ := Text.pathSegments_eq_property.mp segments
      obtain ⟨c, column, h⟩ := ok_of_bind h
      cases h
      exact .property plain (ok_of_orFail column)
    next relation property segments =>
      obtain ⟨rfl, plain, plain'⟩ := Text.pathSegments_eq_related.mp segments
      obtain ⟨r, declared, h⟩ := ok_of_bind h
      obtain ⟨target, htarget, h⟩ := ok_of_bind h
      obtain ⟨c, column, h⟩ := ok_of_bind h
      cases h
      exact .related plain plain' (ok_of_orFail declared) htarget (ok_of_orFail column)
    next => cases h
  · intro h
    cases h with
    | property plain column =>
        have segments := Text.pathSegments_eq_property.mpr ⟨rfl, plain⟩
        simp only [resolve, segments, EntityMap.column, orFail, ok_bind, column]
        rfl
    | @related relation property r target c plain plain' declared target_eq column =>
        have segments := Text.pathSegments_eq_related.mpr ⟨rfl, plain, plain'⟩
        simp only [resolve, segments, EntityMap.relation, declared, EntityMap.column, orFail,
          ok_bind, target_eq, column]
        rfl

end Model

/-! ## Relations in paths -/

/-- The path goes through the relation, to one of its properties or further. -/
def GoesThrough (path relation : String) : Prop :=
  '.' ∉ relation.toList ∧ ∃ rest, path = relation ++ "." ++ rest

theorem GoesThrough.head?_pathSegments {path relation : String} (h : GoesThrough path relation) :
    (Text.pathSegments path).head? = some relation := by
  obtain ⟨plain, rest, rfl⟩ := h
  have dot : ".".toList = ['.'] := by decide
  rw [Text.pathSegments, String.toList_append, String.toList_append, dot, List.append_assoc,
    List.singleton_append, Text.cutAt_eq_splitOn, List.splitOn_append_cons_self_of_not_mem plain]
  exact congrArg some String.ofList_toList

/-- A path begins with the name of at most one relation. -/
theorem GoesThrough.unique {path relation relation' : String} (h : GoesThrough path relation)
    (h' : GoesThrough path relation') : relation = relation' :=
  Option.some.inj (h.head?_pathSegments.symm.trans h'.head?_pathSegments)

/-- A column is reached through the relation that its path goes through. -/
theorem Model.Names.relation_eq_some_iff {m : Model} {map : EntityMap} {path relation : String}
    {resolved : ResolvedPath} (h : m.Names map path resolved) :
    resolved.token.relation = some relation ↔ GoesThrough path relation := by
  cases h with
  | property plain =>
      refine iff_of_false nofun ?_
      rintro ⟨-, rest, rfl⟩
      exact plain (by simp)
  | @related name property r target c plain plain' declared =>
      obtain rfl : r.property = name := EntityMap.property_of_relation? declared
      have through : GoesThrough (r.property ++ "." ++ property) r.property := ⟨plain, _, rfl⟩
      rw [Option.some.injEq]
      constructor
      · rintro rfl
        exact through
      · exact through.unique

end GraphStore
