import GraphStore.Proofs.Statement.Agreement
import GraphStore.Proofs.Statement.PrimaryKey

/-!
# Names of columns

A declaration is rejected if it has a property twice, but a column can be given a name of its own,
and that name is compared with no other. The columns of a map have different names exactly if each
given name differs from the names of all other columns (`Declaration.GivenNamesDiffer`); then no
statement names a column twice, be it the definition of the table or a write of its rows
(`EntityType.names_columns_once`). Otherwise the table is defined with a column twice in every
dialect, and an insert or an update may list it twice (`EntityType.names_columns_twice_mains`).
-/

set_option autoImplicit false

namespace GraphStore

open Sign

/-! ## Declarations -/

/-- Two columns differ in name if one of them has been given its name. -/
def ColumnDeclaration.GivenNameDiffers (c c' : ColumnDeclaration) : Prop :=
  c.name.isSome = true ∨ c'.name.isSome = true → c.columnName ≠ c'.columnName

/-- A name that is given to a column is not the name of another one. -/
def Declaration.GivenNamesDiffer (d : Declaration) : Prop :=
  d.columns.Pairwise ColumnDeclaration.GivenNameDiffers

namespace ColumnDeclaration

instance (c c' : ColumnDeclaration) : Decidable (c.GivenNameDiffers c') :=
  inferInstanceAs (Decidable (_ → _))

/-- Where no name is given, the columns are named like their properties. -/
theorem columnName_ne_iff {c c' : ColumnDeclaration} (h : c.property ≠ c'.property) :
    c.columnName ≠ c'.columnName ↔ c.GivenNameDiffers c' := by
  refine ⟨fun differ _ => differ, fun differ => ?_⟩
  by_cases given : c.name.isSome = true ∨ c'.name.isSome = true
  · exact differ given
  · rw [not_or, Bool.not_eq_true, Option.isSome_eq_false_iff, Bool.not_eq_true,
      Option.isSome_eq_false_iff, Option.isNone_iff_eq_none, Option.isNone_iff_eq_none] at given
    rwa [columnName, columnName, given.1, given.2]

end ColumnDeclaration

instance (d : Declaration) : Decidable d.GivenNamesDiffer :=
  inferInstanceAs (Decidable (List.Pairwise _ _))

/-- The names of different properties are compared only as far as they are given. -/
theorem Declaration.nodup_columnNames_iff {d : Declaration}
    (h : (d.columns.map (·.property)).Nodup) :
    (d.columns.map (·.columnName)).Nodup ↔ d.GivenNamesDiffer := by
  rw [List.Nodup, List.pairwise_map] at h ⊢
  constructor
  · intro differ
    exact differ.imp_of_mem fun _ _ hne _ => hne
  · intro differ
    exact (h.and differ).imp fun hne => (ColumnDeclaration.columnName_ne_iff hne.1).mpr hne.2

/-! ## Statements -/

/-- The name of a column that is defined. -/
def TablePart.definedColumn? : TablePart → Option String
  | .column s _ => some s
  | .primaryKey _ => none
  | .other => none

/-- The statements that write rows of the table of an entity. -/
inductive EntityMap.Writes (map : EntityMap) : Statement → Prop where
  | insert {forced : Bool} {b b' : Bench} {st : InsertStatement}
      (built : Edit.insert map forced b = .ok (some st) b') : Writes map (.insert st)
  | update {fields : Option (List String)} {b b' : Bench} {st : UpdateStatement}
      (built : Edit.update map fields b = .ok st b') : Writes map (.update st)
  | delete {b b' : Bench} {st : Statement}
      (built : Edit.delete map b = .ok st b') : Writes map st
  | deleteWhere {m : Model} {p : Predicate} {supply supply' : Supply} {st : Statement}
      (built : m.deleteWhere map p supply = .ok (st, supply')) : Writes map st
  | deleteOrphans {m : Model} {relation : RelationDef} {owner : Value} {keep : List Record}
      {supply supply' : Supply} {st : Statement} (target : m.target relation = .ok map)
      (built : m.deleteOrphans relation owner keep supply = .ok (st, supply')) : Writes map st

namespace EntityMap

variable {map : EntityMap} {st : Statement}

theorem columns_of_assignments {record : Record} {columns : List ColumnDef}
    {context context' : Context} {values : List Assignment}
    (h : map.assignments record columns context = .ok (values, context')) :
    values.map (·.column) = columns.map (·.name) := by
  have names := congrArg (List.map Prod.fst) (values_of_assignments h)
  rwa [List.map_map, List.map_map] at names

/-- What is written to rows of the table has no column twice. -/
theorem Writes.nodup_assignments (h : map.Writes st) (hderived : map.Derived)
    (hnames : (map.columns.map (·.name)).Nodup) : (st.assignments.map (·.column)).Nodup := by
  have some_columns (p : ColumnDef → Bool) : ((map.columns.filter p).map (·.name)).Nodup :=
    hnames.sublist (List.filter_sublist.map _)
  cases h with
  | insert built =>
      obtain ⟨-, _, _, _, -, -, -, hvalues⟩ := Edit.steps_of_insert_some built
      rw [Statement.assignments, columns_of_assignments hvalues]
      exact some_columns _
  | update built =>
      obtain ⟨-, -, -, _, _, _, -, -, hset, -⟩ := Edit.steps_of_update built
      rw [Statement.assignments, columns_of_assignments hset]
      exact some_columns _
  | delete built =>
      obtain ⟨-, _, _, _, -, hremoved, -⟩ := Edit.steps_of_delete built
      exact Edit.nodup_of_removeRows hderived hnames hremoved
  | deleteWhere built =>
      obtain ⟨_, -, hremoved⟩ := ok_of_bind built
      exact Edit.nodup_of_removeRows hderived hnames (Except.ok.inj hremoved)
  | deleteOrphans target built =>
      obtain ⟨_, _, _, _, htarget, -, -, hremoved⟩ := Model.steps_of_deleteOrphans built
      cases target.symm.trans htarget
      exact Edit.nodup_of_removeRows hderived hnames hremoved

/-- The parts of a definition that are columns have the names of the columns. -/
theorem definedColumns_declared : map.declared.filterMap TablePart.definedColumn? =
    map.columns.map (·.name) := by
  have keyless : (if 1 < map.keys.length then
      [TablePart.primaryKey (map.keyColumns.map (·.name))] else []).filterMap
        TablePart.definedColumn? = [] := by
    split <;> rfl
  rw [declared, List.filterMap_append, keyless, List.append_nil, List.filterMap_map]
  exact congrFun (List.filterMap_eq_map' (f := fun c : ColumnDef => c.name)) map.columns

theorem names_of_primaryKey_mem_declared {names : List String}
    (h : .primaryKey names ∈ map.declared) : names = map.keyColumns.map (·.name) := by
  rcases List.mem_append.mp h with h | h
  · obtain ⟨_, -, heq⟩ := List.mem_map.mp h
    cases heq
  · split at h
    · cases List.mem_singleton.mp h
      rfl
    · cases h

end EntityMap

namespace EntityType

variable {map : EntityMap}

/-- **No statement names a column twice**, if a name that is given to a column is not the name of
another one: not the definition of the table in any dialect, neither among its columns nor in its
primary key, nor what is written to its rows. This is so exactly if the columns of the map, and so
those that the table is defined with, have different names. -/
theorem names_columns_once {e : EntityType} (h : e.derive = .ok map) :
    ((map.columns.map (·.name)).Nodup ↔ e.declaration.GivenNamesDiffer) ∧
    (∀ (d : Dialect) (ifNotExists : Bool),
      let parts := tableParts (d.scan (d.render (.createTable (map.createTable ifNotExists))).sql)
      ((parts.filterMap TablePart.definedColumn?).Nodup ↔ e.declaration.GivenNamesDiffer) ∧
        (e.declaration.GivenNamesDiffer → ∀ names, .primaryKey names ∈ parts → names.Nodup)) ∧
    (e.declaration.GivenNamesDiffer → ∀ st, map.Writes st →
      (st.assignments.map (·.column)).Nodup) := by
  have derived := derived_of_derive h
  have declared := (indexes_of_derive h).columns
  have distinct : (map.columns.map (·.name)).Nodup ↔ e.declaration.GivenNamesDiffer := by
    have properties := derived.columns_nodup
    rw [declared.properties_eq] at properties
    rw [declared.map_eq (g := ColumnDeclaration.columnName) fun _ _ => rfl]
    exact Declaration.nodup_columnNames_iff properties
  refine ⟨distinct, fun d ifNotExists => ?_, fun differ st hwrites =>
    hwrites.nodup_assignments derived (distinct.mpr differ)⟩
  intro parts
  have hparts : parts = map.declared :=
    EntityMap.tableParts_render derived (countsAlone_of_derive h) d ifNotExists
  rw [hparts, EntityMap.definedColumns_declared]
  refine ⟨distinct, fun differ names hnames => ?_⟩
  rw [EntityMap.names_of_primaryKey_mem_declared hnames, derived.keyColumns_eq]
  exact (distinct.mpr differ).sublist (List.filter_sublist.map _)

/-- A column of shelves has a name of its own, which is that of no other; all columns are written
when a shelf is inserted. -/
theorem names_columns_once_shelves : ∃ map st b,
    Sample.shelf.derive = .ok map ∧ Sample.shelf.declaration.GivenNamesDiffer ∧
    Edit.insert map true ⟨Sample.shelf.prototype, NumberedSupply.supply⟩ = .ok (some st) b ∧
    st.values.map (·.column) = ["code", "room", "shelf_label", "removed"] ∧
    (map.columns.map (·.name)).Nodup ∧ (st.values.map (·.column)).Nodup := by
  obtain ⟨map, st, b, h, hinsert, hcolumns⟩ : ∃ map st b, Sample.shelf.derive = .ok map ∧
      Edit.insert map true ⟨Sample.shelf.prototype, NumberedSupply.supply⟩ = .ok (some st) b ∧
      st.values.map (·.column) = ["code", "room", "shelf_label", "removed"] :=
    ⟨_, _, _, rfl, rfl, rfl⟩
  have differ : Sample.shelf.declaration.GivenNamesDiffer := by decide
  obtain ⟨distinct, -, writes⟩ := names_columns_once h
  exact ⟨map, st, b, h, differ, hinsert, hcolumns, distinct.mpr differ,
    writes differ (.insert st) (.insert hinsert)⟩

end EntityType

/-- Main records with a code that is stored under the name of the text. -/
def Sample.renamed : EntityType where
  prototype := mainPrototype
  declaration :=
    { table := "mains"
      columns := [generatedColumn "id", { column "code" with name := "text" }, column "text"] }

/-- The name that is given to the code is the name of the text. The declaration is accepted, and
its table is defined with two columns of this name, which an insert and an update list twice. -/
theorem EntityType.names_columns_twice_mains : ∃ map i b u b',
    Sample.renamed.derive = .ok map ∧ map.columns.map (·.name) = ["id", "text", "text"] ∧
    (∀ (d : Dialect) (ifNotExists : Bool),
      (tableParts (d.scan (d.render (.createTable (map.createTable ifNotExists))).sql)).filterMap
        TablePart.definedColumn? = ["id", "text", "text"]) ∧
    Edit.insert map false ⟨Sample.mainPrototype, NumberedSupply.supply⟩ = .ok (some i) b ∧
    i.values.map (·.column) = ["text", "text"] ∧
    Edit.update map none ⟨Sample.storedMain, NumberedSupply.supply⟩ = .ok u b' ∧
    u.set.map (·.column) = ["text", "text"] := by
  obtain ⟨map, h, hnames⟩ : ∃ map, Sample.renamed.derive = .ok map ∧
      map.columns.map (·.name) = ["id", "text", "text"] := ⟨_, rfl, rfl⟩
  have defined (d : Dialect) (ifNotExists : Bool) :
      (tableParts (d.scan (d.render (.createTable (map.createTable ifNotExists))).sql)).filterMap
        TablePart.definedColumn? = ["id", "text", "text"] := by
    rw [EntityMap.tableParts_render (derived_of_derive h) (countsAlone_of_derive h),
      EntityMap.definedColumns_declared, hnames]
  cases h
  exact ⟨_, _, _, _, _, rfl, hnames, defined, rfl, rfl, rfl, rfl⟩

end GraphStore
