import GraphStore.Sqlite.Function

/-!
# Looking up names

A name of an expression is looked for in the selections around it, from the innermost outwards.
In one selection it must fit exactly one column; if it fits none, the name of an output will do
where outputs have been named already. What is found is a place in the frame.
-/

set_option autoImplicit false

namespace GraphStore.Sqlite

/-- What a name stands for. -/
inductive Meaning where
  | column (p : ColumnPlace) (view : ColumnView)
  | output (depth : Nat) (e : Expr)

/-- How a name fits a selection. -/
inductive Fit where
  | none | one (m : Meaning) | several

/-- Whether a source is called by the qualifiers of a name. -/
def SourceView.isCalled (s : SourceView) : List String → Bool
  | [] => true
  | [table] => sameName s.name table
  | [schema, table] => sameName schema "main" && sameName s.name table
  | _ => false

/-- The column that a name fits in the sources of a selection. -/
def fitSources (depth : Nat) (sources : List SourceView) (qualifiers : List String)
    (name : String) : Fit :=
  let called := sources.zipIdx.filter fun (s, _) => s.isCalled qualifiers
  let found := called.filterMap fun (s, i) =>
    (s.columns.zipIdx.find? fun (c, _) => sameName c.name name).map fun (c, j) =>
      Meaning.column ⟨depth, i, some j⟩ c
  match found with
  | [m] => .one m
  | _ :: _ :: _ => .several
  | [] =>
      match called.filterMap fun (s, i) => s.rowidName.map (·, i) with
      | [(n, i)] =>
          if isRowidName name then
            .one (.column ⟨depth, i, none⟩ { name := n, affinity := some .integer })
          else .none
      | _ => .none

/-- What a name fits in a selection. -/
def fit (depth : Nat) (scope : Scope) (qualifiers : List String) (name : String) : Fit :=
  match fitSources depth scope.sources qualifiers name with
  | .none =>
      if !qualifiers.isEmpty then .none
      else
        match scope.outputs.find? fun (n, _) => sameName n name with
        | some (_, e) => .one (.output depth e)
        | none => .none
  | f => f

/-- What a name stands for, when it fits at all. -/
def lookUp (scopes : Scopes) (qualifiers : List String) (name : String) :
    Except Fault (Option Meaning) :=
  go 0 scopes
where
  go (depth : Nat) : Scopes → Except Fault (Option Meaning)
    | [] => .ok none
    | s :: rest =>
        match fit depth s qualifiers name with
        | .one m => .ok (some m)
        | .several => .error (.ambiguousColumn (String.intercalate "." (qualifiers ++ [name])))
        | .none => go (depth + 1) rest

/-- The term of a column. -/
def Term.ofColumn (p : ColumnPlace) (view : ColumnView) : Term :=
  { eval := fun frame => .ok (p.cell frame), affinity := view.affinity,
    collation := view.collation, column := some (view.name, p) }

end GraphStore.Sqlite
