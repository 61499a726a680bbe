import GraphStore.Proofs.Predicate.Compiled

/-!
# What a condition mentions

The columns and the parameters of a fragment stand where its glyphs have them, so that those of
fragments put together are those of the parts (`columns_append`, `view_connect`). A predicate is
compiled to a fragment whose columns are, one by one, what the paths of the predicate lead to
(`mentions_compileWith`). Only a path that is looked for in an empty list leaves no column behind.
-/

set_option autoImplicit false

namespace GraphStore

/-! ## The columns and the parameters of a fragment -/

def Glyph.column? : Glyph → Option ColumnToken
  | .column c => some c
  | _ => none

def Glyph.param? : Glyph → Option Param
  | .param p => some p
  | _ => none

namespace Fragment

/-- What is seen of the tokens of a fragment is seen of its glyphs, if it is not in texts. -/
theorem filterMap_tokens {α : Type} {see : Token → Option α} {see' : Glyph → Option α}
    (text : ∀ s, see (.text s) = none) (char : ∀ c, see' (.char c) = none)
    (column : ∀ c, see (.column c) = see' (.column c))
    (param : ∀ p, see (.param p) = see' (.param p)) (f : Fragment) :
    f.tokens.filterMap see = f.glyphs.filterMap see' := by
  have one : ∀ t, [t].filterMap see = (Token.glyphs t).filterMap see' := by
    intro t
    cases t with
    | text s => simp [Token.glyphs, text, char]
    | column c => simp only [Token.glyphs, List.filterMap_cons, List.filterMap_nil, column]
    | param p => simp only [Token.glyphs, List.filterMap_cons, List.filterMap_nil, param]
  rw [glyphs]
  induction f.tokens with
  | nil => rfl
  | cons t ts ih =>
      rw [List.flatMap_cons, List.filterMap_append, ← ih, ← one, ← List.filterMap_append,
        List.singleton_append]

theorem columns_eq (f : Fragment) : f.columns = f.glyphs.filterMap Glyph.column? :=
  filterMap_tokens (fun _ => rfl) (fun _ => rfl) (fun _ => rfl) (fun _ => rfl) f

theorem params_eq (f : Fragment) : f.params = f.glyphs.filterMap Glyph.param? :=
  filterMap_tokens (fun _ => rfl) (fun _ => rfl) (fun _ => rfl) (fun _ => rfl) f

@[simp] theorem columns_append (f g : Fragment) : (f ++ g).columns = f.columns ++ g.columns := by
  rw [columns_eq, glyphs_append, List.filterMap_append, ← columns_eq, ← columns_eq]

@[simp] theorem params_append (f g : Fragment) : (f ++ g).params = f.params ++ g.params := by
  rw [params_eq, glyphs_append, List.filterMap_append, ← params_eq, ← params_eq]

@[simp] theorem columns_ofText (s : String) : (ofText s).columns = [] := by
  simp [columns_eq, Glyph.column?]

@[simp] theorem params_ofText (s : String) : (ofText s).params = [] := by
  simp [params_eq, Glyph.param?]

@[simp] theorem columns_ofColumn (c : ColumnToken) : (ofColumn c).columns = [c] := rfl

@[simp] theorem params_ofColumn (c : ColumnToken) : (ofColumn c).params = [] := rfl

@[simp] theorem columns_ofParam (p : Param) : (ofParam p).columns = [] := rfl

@[simp] theorem params_ofParam (p : Param) : (ofParam p).params = [p] := rfl

section

variable {α : Type} {view : Fragment → List α}

/-- What is seen of fragments that are put together, if nothing is seen of texts. -/
theorem view_joined (append : ∀ f g, view (f ++ g) = view f ++ view g)
    (text : ∀ s, view (ofText s) = []) (separator : String) (fs : List Fragment) :
    view (joined separator fs) = fs.flatMap view := by
  induction fs with
  | nil => exact text ""
  | cons f fs ih =>
      cases fs with
      | nil => simp [joined]
      | cons g gs => simp [joined, append, text, ih]

theorem view_connect (append : ∀ f g, view (f ++ g) = view f ++ view g)
    (text : ∀ s, view (ofText s) = []) (op : LogicalOp) (fs : List Fragment) :
    view (connect op fs) = fs.flatMap view := by
  match fs with
  | [] => exact text _
  | [f] => simp [connect]
  | f :: g :: gs => simp [connect, append, text, view_joined append text]

end

theorem columns_joined (separator : String) (fs : List Fragment) :
    (joined separator fs).columns = fs.flatMap columns :=
  view_joined columns_append columns_ofText separator fs

theorem params_joined (separator : String) (fs : List Fragment) :
    (joined separator fs).params = fs.flatMap params :=
  view_joined params_append params_ofText separator fs

theorem columns_connect (op : LogicalOp) (fs : List Fragment) :
    (connect op fs).columns = fs.flatMap columns :=
  view_connect columns_append columns_ofText op fs

theorem params_connect (op : LogicalOp) (fs : List Fragment) :
    (connect op fs).params = fs.flatMap params :=
  view_connect params_append params_ofText op fs

end Fragment

/-! ## What paths lead to -/

namespace Predicate

mutual

/-- The paths whose columns are written, in order. -/
def mentioned : Predicate → List String
  | compare _ path _ => [path]
  | logical _ ps => mentionedByEach ps
  | call _ _ (.list []) => []
  | call _ path _ => [path]
  | not p => mentioned p
  | constant _ => []

def mentionedByEach : List Predicate → List String
  | [] => []
  | p :: ps => mentioned p ++ mentionedByEach ps

end

end Predicate

namespace Model

open Fragment

/-- The column is what the path leads to. -/
def LeadsTo (m : Model) (map : EntityMap) (path : String) (c : ColumnToken) : Prop :=
  ∃ resolved, m.resolve map path = .ok resolved ∧ resolved.token = c

/-- The columns of the fragment are, one by one, what the paths lead to. -/
abbrev Mentions (m : Model) (map : EntityMap) (paths : List String) (cs : List ColumnToken) :
    Prop :=
  List.Forall₂ (m.LeadsTo map) paths cs

variable {m : Model} {map : EntityMap} {f : Fragment} {context after : Context}

theorem mentions_compileCompare {op : CompareOp} {path : String} {v : Value} {negated : Bool}
    (h : m.compileCompare map op path v negated context = .ok (f, after)) :
    m.Mentions map [path] f.columns := by
  unfold compileCompare at h
  obtain ⟨resolved, hresolved, h⟩ := ok_of_bind h
  have leads : m.Mentions map [path] [resolved.token] := .cons ⟨resolved, hresolved, rfl⟩ .nil
  by_cases hv : v.isNull = true
  · simp only [hv, if_true] at h
    obtain ⟨test, -, h⟩ := ok_of_bind h
    cases h
    simpa using leads
  · rw [if_neg hv] at h
    cases h
    simpa [bindParam] using leads

theorem mentions_compileLike {path pattern : String} {negated : Bool}
    (h : m.compileLike map path pattern negated context = .ok (f, after)) :
    m.Mentions map [path] f.columns := by
  unfold compileLike at h
  obtain ⟨resolved, hresolved, h⟩ := ok_of_bind h
  have leads : m.Mentions map [path] [resolved.token] := .cons ⟨resolved, hresolved, rfl⟩ .nil
  cases h
  simpa [bindParam] using leads

theorem mentions_compileIn {path : String} {vs : List Value} {negated : Bool}
    (h : m.compileIn map path vs negated context = .ok (f, after)) :
    m.Mentions map (if vs.isEmpty then [] else [path]) f.columns := by
  unfold compileIn at h
  obtain ⟨resolved, hresolved, h⟩ := ok_of_bind h
  have leads : m.Mentions map [path] [resolved.token] := .cons ⟨resolved, hresolved, rfl⟩ .nil
  split at h
  next hempty =>
    cases h
    simp [hempty]
  next hsome =>
    cases h
    obtain ⟨ps, hps, -⟩ := exists_bindEach resolved.column.name vs context
    have silent : (ps.map ofParam).flatMap columns = [] := by simp [List.flatMap_map]
    rw [if_neg hsome]
    simpa [hps, columns_joined, silent] using leads

theorem mentions_compileCall {method path : String} {argument : Argument} {negated : Bool}
    (h : m.compileCall map method path argument negated context = .ok (f, after)) :
    m.Mentions map (Predicate.call method path argument).mentioned f.columns := by
  rcases compileCall_eq_ok.mp h with ⟨text, rfl, -, h⟩ | ⟨vs, rfl, -, h⟩
  · exact mentions_compileLike h
  · cases vs with
    | nil => exact mentions_compileIn h
    | cons v vs => exact mentions_compileIn h

mutual

/-- The columns of the fragment of a predicate are, one by one, what its paths lead to. -/
theorem mentions_compileWith (p : Predicate) (negated : Bool) {f : Fragment}
    {context after : Context} (h : m.compileWith map p negated context = .ok (f, after)) :
    m.Mentions map p.mentioned f.columns := by
  cases p with
  | compare op path v => exact mentions_compileCompare h
  | logical op children =>
      rw [compileWith] at h
      obtain ⟨⟨fs, context₁⟩, hfs, h⟩ := ok_of_bind h
      cases h
      rw [columns_connect]
      exact mentions_compileEach children negated hfs
  | call method path argument => exact mentions_compileCall h
  | not inner => exact mentions_compileWith inner (!negated) h
  | constant v =>
      cases h
      rw [columns_ofText]
      exact .nil

theorem mentions_compileEach (ps : List Predicate) (negated : Bool) {fs : List Fragment}
    {context after : Context} (h : m.compileEach map ps negated context = .ok (fs, after)) :
    m.Mentions map (Predicate.mentionedByEach ps) (fs.flatMap columns) := by
  cases ps with
  | nil =>
      cases h
      exact .nil
  | cons p ps =>
      rw [compileEach] at h
      obtain ⟨⟨f, context₁⟩, hf, h⟩ := ok_of_bind h
      obtain ⟨⟨gs, context₂⟩, hgs, h⟩ := ok_of_bind h
      cases h
      exact List.rel_append (mentions_compileWith p negated hf)
        (mentions_compileEach ps negated hgs)

end

end Model

end GraphStore
