import GraphStore.Proofs.Sql.Condition
import Mathlib.Data.List.Infix

/-!
# Patterns

What `LIKE` means in a database that has no escape character and tells all characters apart
(`Like`): `%` stands for any text, `_` for any one character, and every other character for itself.
A text is a pattern that it matches itself; it is matched by nothing else if and only if there is
no wildcard in it.
-/

set_option autoImplicit false

namespace GraphStore

/-- The character stands for others in a pattern. -/
def IsWildcard (c : Char) : Prop := c = '%' ∨ c = '_'

instance (c : Char) : Decidable (IsWildcard c) := inferInstanceAs (Decidable (_ ∨ _))

/-- The text matches the pattern. -/
inductive Like : List Char → List Char → Prop where
  | nil : Like [] []
  | any {ps rest : List Char} (front : List Char) (h : Like ps rest) :
      Like ('%' :: ps) (front ++ rest)
  | one {ps s : List Char} (c : Char) (h : Like ps s) : Like ('_' :: ps) (c :: s)
  | same {ps s : List Char} {c : Char} (plain : ¬ IsWildcard c) (h : Like ps s) :
      Like (c :: ps) (c :: s)

namespace Like

variable {p : Char} {ps s : List Char}

/-- Anything, and then the rest of the pattern. -/
theorem percent_cons_iff : Like ('%' :: ps) s ↔ ∃ part, part <:+ s ∧ Like ps part := by
  constructor
  · intro h
    cases h with
    | any front h => exact ⟨_, List.suffix_append front _, h⟩
    | same plain h => exact absurd (.inl rfl) plain
  · rintro ⟨part, ⟨front, rfl⟩, h⟩
    exact .any front h

/-- One character, and then the rest of the pattern. -/
theorem cons_iff (hp : p ≠ '%') :
    Like (p :: ps) s ↔ ∃ c rest, s = c :: rest ∧ (p = '_' ∨ p = c) ∧ Like ps rest := by
  constructor
  · intro h
    cases h with
    | any => exact absurd rfl hp
    | one c h => exact ⟨c, _, rfl, .inl rfl, h⟩
    | same plain h => exact ⟨p, _, rfl, .inr rfl, h⟩
  · rintro ⟨c, rest, rfl, hc, h⟩
    by_cases hone : p = '_'
    · subst hone
      exact .one c h
    · obtain rfl := hc.resolve_left hone
      exact .same (not_or.mpr ⟨hp, hone⟩) h

end Like

/-! ## Matching -/

/-- Whether the text matches the pattern. -/
def isLike : List Char → List Char → Bool
  | [], s => s.isEmpty
  | p :: ps, s =>
      if p = '%' then s.tails.any (isLike ps)
      else s.head?.any (fun c => p = '_' || p = c) && isLike ps s.tail

theorem isLike_iff {ps s : List Char} : isLike ps s = true ↔ Like ps s := by
  induction ps generalizing s with
  | nil =>
      rw [isLike, List.isEmpty_iff]
      constructor
      · rintro rfl
        exact .nil
      · intro h
        cases h
        rfl
  | cons p ps ih =>
      rw [isLike]
      by_cases hany : p = '%'
      · subst hany
        simp only [if_pos, List.any_eq_true, List.mem_tails, ih, Like.percent_cons_iff]
      · rw [if_neg hany, Like.cons_iff hany]
        cases s with
        | nil => simp
        | cons c s =>
            simp only [List.head?_cons, Option.any_some, List.tail_cons, Bool.and_eq_true,
              Bool.or_eq_true, decide_eq_true_eq, ih]
            constructor
            · rintro ⟨hc, h⟩
              exact ⟨c, s, rfl, hc, h⟩
            · rintro ⟨c', rest, heq, hc, h⟩
              obtain ⟨rfl, rfl⟩ := List.cons.inj heq
              exact ⟨hc, h⟩

instance (ps s : List Char) : Decidable (Like ps s) := decidable_of_iff _ isLike_iff

/-! ## Patterns that are put together -/

namespace Like

variable {ps qs s t : List Char}

theorem append (h : Like ps s) (h' : Like qs t) : Like (ps ++ qs) (s ++ t) := by
  induction h with
  | nil => exact h'
  | any front _ ih =>
      rw [List.append_assoc]
      exact .any front ih
  | one c _ ih => exact .one c ih
  | same plain _ ih => exact .same plain ih

/-- A text that matches two patterns in a row has a part for each. -/
theorem exists_of_append (h : Like (ps ++ qs) s) :
    ∃ front back, s = front ++ back ∧ Like ps front ∧ Like qs back := by
  induction ps generalizing s with
  | nil => exact ⟨[], s, rfl, .nil, h⟩
  | cons p ps ih =>
      rw [List.cons_append] at h
      cases h with
      | any skipped h =>
          obtain ⟨front, back, rfl, hfront, hback⟩ := ih h
          exact ⟨skipped ++ front, back, by rw [List.append_assoc], .any skipped hfront, hback⟩
      | one c h =>
          obtain ⟨front, back, rfl, hfront, hback⟩ := ih h
          exact ⟨c :: front, back, rfl, .one c hfront, hback⟩
      | same plain h =>
          obtain ⟨front, back, rfl, hfront, hback⟩ := ih h
          exact ⟨p :: front, back, rfl, .same plain hfront, hback⟩

/-- Any text matches the pattern for any text. -/
theorem percent (s : List Char) : Like ['%'] s := by
  have whole := Like.any s .nil
  rwa [List.append_nil] at whole

/-- The pattern, and then anything. -/
theorem append_percent_iff : Like (ps ++ ['%']) s ↔ ∃ part, part <+: s ∧ Like ps part := by
  constructor
  · intro h
    obtain ⟨front, back, rfl, hfront, -⟩ := h.exists_of_append
    exact ⟨front, List.prefix_append front back, hfront⟩
  · rintro ⟨part, ⟨rest, rfl⟩, h⟩
    exact h.append (percent rest)

/-! ## Texts as patterns -/

/-- A text matches itself. -/
theorem refl (s : List Char) : Like s s := by
  induction s with
  | nil => exact .nil
  | cons c s ih =>
      by_cases hc : IsWildcard c
      · rcases hc with rfl | rfl
        · exact .any ['%'] ih
        · exact .one '_' ih
      · exact .same hc ih

/-- Without wildcards, nothing else does. -/
theorem eq_of_plain (plain : ∀ c ∈ ps, ¬ IsWildcard c) (h : Like ps s) : s = ps := by
  induction h with
  | nil => rfl
  | any => exact absurd (.inl rfl) (plain '%' List.mem_cons_self)
  | one => exact absurd (.inr rfl) (plain '_' List.mem_cons_self)
  | same _ _ ih => rw [ih fun c hc => plain c (List.mem_cons_of_mem _ hc)]

/-- Some text without wildcards matches. -/
theorem exists_plain (ps : List Char) : ∃ s, Like ps s ∧ ∀ c ∈ s, ¬ IsWildcard c := by
  induction ps with
  | nil => exact ⟨[], .nil, nofun⟩
  | cons p ps ih =>
      obtain ⟨s, hs, plain⟩ := ih
      by_cases hany : p = '%'
      · subst hany
        exact ⟨s, .any [] hs, plain⟩
      · by_cases hone : p = '_'
        · subst hone
          exact ⟨'a' :: s, .one 'a' hs, List.forall_mem_cons.mpr ⟨by decide, plain⟩⟩
        · have hp : ¬ IsWildcard p := not_or.mpr ⟨hany, hone⟩
          exact ⟨p :: s, .same hp hs, List.forall_mem_cons.mpr ⟨hp, plain⟩⟩

end Like

/-! ## Databases -/

namespace Semantics

/-- The database has no escape character in patterns and tells all characters apart. -/
def MatchesExactly (s : Semantics) : Prop :=
  ∀ text pattern : String, s.matchesPattern (.varchar (some text)) (.varchar (some pattern)) =
    isLike pattern.toList text.toList

/-- A database of this kind, which orders values by their content. -/
def exactly : Semantics where
  compare := byContent.compare
  total := byContent.total
  same_of_tied := byContent.same_of_tied
  matchesPattern
    | .varchar (some text), .varchar (some pattern) => isLike pattern.toList text.toList
    | _, _ => false

theorem matchesExactly_exactly : exactly.MatchesExactly := fun _ _ => rfl

end Semantics

end GraphStore
