import GraphStore.Proofs.Predicate.WellFormed
import GraphStore.Proofs.Sql.Pattern

/-!
# Text methods

A text method puts its text into a pattern as it is. So it asks whether a part of the column, at
its start, at its end or anywhere, matches the text as a pattern (`TextMethod.Finds`). This is so
whenever the text itself is such a part, and only then if and only if there is no wildcard in it.
-/

set_option autoImplicit false

namespace GraphStore

open Sqlite (Truth)

/-- The methods that look for a text. -/
inductive TextMethod where
  | startsWith | endsWith | contains
deriving DecidableEq, Repr

namespace TextMethod

/-- The call of the method. -/
def predicate : TextMethod → String → String → Predicate
  | startsWith => Predicate.startsWith
  | endsWith => Predicate.endsWith
  | contains => Predicate.contains

def name : TextMethod → String
  | startsWith => "starts_with"
  | endsWith => "ends_with"
  | contains => "contains"

/-- The parts of a text that the method looks at. -/
def Part : TextMethod → List Char → List Char → Prop
  | startsWith, part, whole => part <+: whole
  | endsWith, part, whole => part <:+ whole
  | contains, part, whole => part <:+: whole

/-- A part that the method looks at matches the text as a pattern. -/
def Finds (method : TextMethod) (text whole : String) : Prop :=
  ∃ part, method.Part part whole.toList ∧ Like text.toList part

variable {method : TextMethod}

theorem predicate_eq (method : TextMethod) (path text : String) :
    method.predicate path text = .call method.name path (.value (.varchar (some text))) := by
  cases method <;> rfl

theorem Part.subset {part whole : List Char} (h : method.Part part whole) : part ⊆ whole := by
  cases method with
  | startsWith => exact List.IsPrefix.subset h
  | endsWith => exact List.IsSuffix.subset h
  | contains => exact List.IsInfix.subset h

/-- The whole text is one of its parts. -/
theorem Part.whole (method : TextMethod) (s : List Char) : method.Part s s := by
  cases method with
  | startsWith => exact List.prefix_refl s
  | endsWith => exact List.suffix_refl s
  | contains => exact List.infix_refl s

/-- The pattern is matched if a part matches the text. -/
theorem isLike_likePattern (method : TextMethod) (text whole : String) :
    isLike (likePattern method.name text).toList whole.toList = true ↔ method.Finds text whole := by
  rw [isLike_iff]
  cases method with
  | startsWith =>
      have pattern : (likePattern "starts_with" text).toList = text.toList ++ ['%'] := by
        simp [likePattern]
      rw [name, pattern, Like.append_percent_iff]
      rfl
  | endsWith =>
      have pattern : (likePattern "ends_with" text).toList = '%' :: text.toList := by
        simp [likePattern]
      rw [name, pattern, Like.percent_cons_iff]
      rfl
  | contains =>
      have pattern : (likePattern "contains" text).toList = '%' :: (text.toList ++ ['%']) := by
        simp [likePattern]
      simp only [name, pattern, Like.percent_cons_iff, Like.append_percent_iff]
      constructor
      · rintro ⟨back, hback, part, hpart, h⟩
        exact ⟨part, List.infix_iff_prefix_suffix.mpr ⟨back, hpart, hback⟩, h⟩
      · rintro ⟨part, hpart, h⟩
        obtain ⟨back, hprefix, hsuffix⟩ := List.infix_iff_prefix_suffix.mp hpart
        exact ⟨back, hsuffix, part, hprefix, h⟩

/-- A text that is a part is found. -/
theorem finds_of_part {text whole : String} (h : method.Part text.toList whole.toList) :
    method.Finds text whole := ⟨text.toList, h, .refl text.toList⟩

/-- Nothing else is found if and only if there is no wildcard in the text. -/
theorem finds_only_parts_iff (method : TextMethod) (text : String) :
    (∀ whole, method.Finds text whole → method.Part text.toList whole.toList) ↔
      ∀ c ∈ text.toList, ¬ IsWildcard c := by
  constructor
  · intro h c hc
    -- a text without wildcards matches, and would have the wildcard in it
    obtain ⟨s, hs, plain⟩ := Like.exists_plain text.toList
    have found : method.Finds text (String.ofList s) := ⟨s, by
      rw [String.toList_ofList]
      exact Part.whole method s, hs⟩
    have part := h (String.ofList s) found
    rw [String.toList_ofList] at part
    exact plain c (part.subset hc)
  · rintro plain whole ⟨part, hpart, hlike⟩
    rwa [← hlike.eq_of_plain plain]

end TextMethod

namespace Model

variable {m : Model} {map : EntityMap} {path : String} {resolved : ResolvedPath}

/-- A text method on a column that there is compiles, and so does its negation. -/
theorem exists_compile_textMethod (hresolved : m.resolve map path = .ok resolved)
    (method : TextMethod) (text : String) (context : Context) :
    ∃ f g after, m.compile map (method.predicate path text) context = .ok (f, after) ∧
      m.compile map (.not (method.predicate path text)) context = .ok (g, after) := by
  have known : isTextMethod method.name = true := by cases method <;> decide
  have call : ∀ negated result,
      m.compileLike map path (likePattern method.name text) negated context = .ok result →
      m.compileCall map method.name path (.value (.varchar (some text))) negated context =
        .ok result := fun negated result h => compileCall_eq_ok.mpr (.inl ⟨text, rfl, known, h⟩)
  obtain ⟨f, g, after, hf, hg⟩ : ∃ f g after,
      m.compileLike map path (likePattern method.name text) false context = .ok (f, after) ∧
      m.compileLike map path (likePattern method.name text) true context = .ok (g, after) := by
    simp only [compileLike, hresolved, ok_bind]
    exact ⟨_, _, _, rfl, rfl⟩
  rw [method.predicate_eq]
  exact ⟨f, g, after, call false _ hf, call true _ hg⟩

/-- The truth of a text method. -/
theorem truth_textMethod (hresolved : m.resolve map path = .ok resolved) (method : TextMethod)
    (text : String) {s : Semantics} (hs : s.MatchesExactly) {row : Valuation} {whole : String}
    (hrow : row resolved.token = .varchar (some whole)) :
    (method.predicate path text).truth s (m.pathValues map row) =
      some (isLike (likePattern method.name text).toList whole.toList) := by
  rw [method.predicate_eq, Predicate.truth, pathValues_of_resolve hresolved, hrow]
  exact congrArg some (hs whole _)

/-- **What text methods mean.** In a database that has no escape character and tells all characters
apart, the fragment of a text method is true of a row if and only if a part of the column, at its
start, at its end or anywhere, matches the text as a pattern; and the fragment of its negation if
and only if none does. A text that is itself such a part is always found, and nothing else is found
for any column if and only if neither wildcard is in the text. -/
theorem meaning_of_textMethod (hresolved : m.resolve map path = .ok resolved)
    (method : TextMethod) (text : String) (context : Context) :
    (∃ f g after c d, m.compile map (method.predicate path text) context = .ok (f, after) ∧
      m.compile map (.not (method.predicate path text)) context = .ok (g, after) ∧
      f.condition? = some c ∧ g.condition? = some d ∧
      ∀ (s : Semantics) (row : Valuation) (whole : String), s.MatchesExactly →
        row resolved.token = .varchar (some whole) →
        (c.truth s row = some true ↔ method.Finds text whole) ∧
        (d.truth s row = some true ↔ ¬ method.Finds text whole)) ∧
    (∀ whole : String, method.Part text.toList whole.toList → method.Finds text whole) ∧
    ((∀ whole : String, method.Finds text whole ↔ method.Part text.toList whole.toList) ↔
      '%' ∉ text.toList ∧ '_' ∉ text.toList) := by
  refine ⟨?_, fun whole => TextMethod.finds_of_part, ?_⟩
  · obtain ⟨f, g, after, hf, hg⟩ := exists_compile_textMethod hresolved method text context
    obtain ⟨c, hc, htruth⟩ := exists_condition_compile hf
    obtain ⟨d, hd, hnegated⟩ := exists_condition_compile hg
    refine ⟨f, g, after, c, d, hf, hg, Fragment.condition?_of_operand hc,
      Fragment.condition?_of_operand hd, fun s row whole hs hrow => ?_⟩
    have truth := truth_textMethod hresolved method text hs hrow
    rw [htruth, hnegated, Predicate.truth, truth, ← method.isLike_likePattern]
    cases isLike (likePattern method.name text).toList whole.toList with
    | false => exact ⟨by decide, by decide⟩
    | true => exact ⟨by decide, by decide⟩
  · have plain : (∀ c ∈ text.toList, ¬ IsWildcard c) ↔ '%' ∉ text.toList ∧ '_' ∉ text.toList := by
      constructor
      · exact fun h => ⟨fun hmem => h _ hmem (.inl rfl), fun hmem => h _ hmem (.inr rfl)⟩
      · rintro ⟨hany, hone⟩ c hc (rfl | rfl)
        · exact hany hc
        · exact hone hc
    rw [← plain, ← method.finds_only_parts_iff]
    exact forall_congr' fun whole => ⟨fun h => h.mp, fun h => ⟨h, TextMethod.finds_of_part⟩⟩

/-- Books whose title has a percent sign in it. -/
theorem meaning_of_textMethod_books :
    let m := Sample.model none none
    ∃ map resolved, m.entityMap "sql::Book" = .ok map ∧
      m.resolve map "title" = .ok resolved ∧
      ∃ f g after c d, m.compile map (.contains "title" "10%") {} = .ok (f, after) ∧
        m.compile map (.not (.contains "title" "10%")) {} = .ok (g, after) ∧
        f.condition? = some c ∧ g.condition? = some d ∧
        ∀ (s : Semantics) (row : Valuation) (whole : String), s.MatchesExactly →
          row resolved.token = .varchar (some whole) →
          (c.truth s row = some true ↔ TextMethod.contains.Finds "10%" whole) ∧
          (d.truth s row = some true ↔ ¬ TextMethod.contains.Finds "10%" whole) :=
  ⟨_, _, rfl, rfl, (meaning_of_textMethod rfl .contains "10%" {}).1⟩

/-- The title `10 of 100` does not contain `10%`, but the fragment is true of it. -/
theorem contains_percent :
    let m := Sample.model none none
    ∃ map resolved f after c, m.entityMap "sql::Book" = .ok map ∧
      m.resolve map "title" = .ok resolved ∧
      m.compile map (.contains "title" "10%") {} = .ok (f, after) ∧ f.condition? = some c ∧
      Semantics.exactly.MatchesExactly ∧
      c.truth .exactly (fun _ => .varchar (some "10 of 100")) = some true ∧
      ¬ "10%".toList <:+: "10 of 100".toList := by
  intro m
  obtain ⟨map, resolved, hmap, hresolved⟩ : ∃ map resolved, m.entityMap "sql::Book" = .ok map ∧
      m.resolve map "title" = .ok resolved := ⟨_, _, rfl, rfl⟩
  obtain ⟨f, -, after, hf, -⟩ := exists_compile_textMethod hresolved .contains "10%" {}
  obtain ⟨c, hc, htruth⟩ := exists_condition_compile hf
  have truth : (TextMethod.contains.predicate "title" "10%").truth .exactly
      (m.pathValues map fun _ => .varchar (some "10 of 100")) =
        some (isLike (likePattern TextMethod.contains.name "10%").toList "10 of 100".toList) :=
    truth_textMethod hresolved .contains "10%" Semantics.matchesExactly_exactly rfl
  refine ⟨map, resolved, f, after, c, hmap, hresolved, hf, Fragment.condition?_of_operand hc,
    Semantics.matchesExactly_exactly, ?_, by decide⟩
  rw [htruth, truth]
  decide

end Model

end GraphStore
