import GraphStore.Proofs.Sql.Lexemes
import Mathlib.Algebra.GroupWithZero.Nat

/-!
# Reading the definition of a table

What a text says of a table that it creates is read from its signs, so that nothing in a name is
taken for a word. Behind `CREATE TABLE` and the name of the table stands a list in parentheses. Its
parts, between the commas that are outside of other parentheses, are the definitions of columns and
a primary key that is declared apart from them (`Sign.tableParts`). How often a phrase is written is
counted in the same signs (`Sign.occurrences`).
-/

set_option autoImplicit false

namespace GraphStore

namespace Sign

variable {phrase : String} {s : Sign (List Char)} {ss ts : List (Sign (List Char))}

/-! ## Phrases -/

/-- A name is no part of a phrase. -/
theorem name_not_mem_ofText {μ : Type} (name : String) : .name name ∉ ofText (μ := μ) phrase := by
  simp [ofText]

/-- How often a phrase is written. -/
def occurrences (phrase : String) : List (Sign (List Char)) → Nat
  | [] => 0
  | s :: ss => (if ofText phrase <+: s :: ss then 1 else 0) + occurrences phrase ss

/-- What is written behind the first occurrence of a phrase. -/
def behind (phrase : String) : List (Sign (List Char)) → List (Sign (List Char))
  | [] => []
  | s :: ss =>
      if ofText phrase <+: s :: ss then (s :: ss).drop (ofText (μ := List Char) phrase).length
      else behind phrase ss

theorem not_mem_intercalate {separator : List (Sign (List Char))}
    {parts : List (List (Sign (List Char)))} (hseparator : s ∉ separator)
    (h : ∀ p ∈ parts, s ∉ p) : s ∉ separator.intercalate parts := by
  induction parts with
  | nil => exact List.not_mem_nil
  | cons p parts ih =>
      obtain ⟨part, others⟩ := List.forall_mem_cons.mp h
      by_cases hparts : parts = []
      · rwa [hparts, List.intercalate_singleton]
      · rw [List.intercalate_cons_of_ne_nil hparts]
        simp [part, hseparator, ih others]

/-- Where one of the signs of a phrase is missing, the phrase is not written. -/
theorem occurrences_eq_zero (hs : s ∈ ofText phrase) (h : s ∉ ss) : occurrences phrase ss = 0 := by
  induction ss with
  | nil => rfl
  | cons t ss ih =>
      have apart : ¬ ofText phrase <+: t :: ss := fun begun => h (begun.subset hs)
      rw [occurrences, if_neg apart, ih fun hmem => h (List.mem_cons_of_mem t hmem)]

/-- No phrase that is begun in `ss` goes on in `ts`. -/
def Apart (phrase : String) (ss ts : List (Sign (List Char))) : Prop :=
  ∀ t, t <:+ ss → t ≠ [] → ofText phrase <+: t ++ ts → ofText phrase <+: t

/-- A phrase does not go on where its signs do not follow one another. -/
theorem apart_of_getLast? (h : ∀ x ∈ ss.getLast?, ¬ [x, s] <:+: ofText phrase) :
    Apart phrase ss (s :: ts) := by
  intro t tail hne begun
  rcases List.prefix_or_prefix_of_prefix begun (List.prefix_append t _) with hwhole | ⟨rest, heq⟩
  · exact hwhole
  · rw [← heq, List.prefix_append_right_inj] at begun
    cases rest with
    | nil => exact heq ▸ by simp
    | cons s' rest =>
        obtain ⟨rfl, -⟩ := List.cons_prefix_cons.mp begun
        obtain ⟨front, x, rfl⟩ := (List.eq_nil_or_concat t).resolve_left hne
        obtain ⟨before, rfl⟩ := tail
        exact absurd ⟨front, rest, by simp [← heq]⟩ (h x (by simp))

/-- A phrase that is begun does not end with a sign that is not part of it. -/
theorem apart_of_last (h : ∀ x ∈ ss.getLast?, x ∉ ofText phrase) : Apart phrase ss ts := by
  cases ts with
  | nil =>
      intro t _ _ begun
      rwa [List.append_nil] at begun
  | cons s ts => exact apart_of_getLast? fun x hx within => h x hx (within.subset (by simp))

theorem apart_of_not_mem (hs : s ∉ ofText phrase) : Apart phrase ss (s :: ts) :=
  apart_of_getLast? fun _ _ h => hs (h.subset (by simp))

theorem Apart.tail {t : Sign (List Char)} (h : Apart phrase (t :: ss) ts) : Apart phrase ss ts :=
  fun _ tail => h _ (tail.trans (List.suffix_cons t ss))

theorem Apart.prefix_iff {t : Sign (List Char)} (h : Apart phrase (t :: ss) ts) :
    ofText phrase <+: t :: (ss ++ ts) ↔ ofText phrase <+: t :: ss :=
  ⟨h _ List.suffix_rfl (List.cons_ne_nil t ss),
    fun begun => begun.trans (List.prefix_append (t :: ss) ts)⟩

theorem occurrences_append (h : Apart phrase ss ts) :
    occurrences phrase (ss ++ ts) = occurrences phrase ss + occurrences phrase ts := by
  induction ss with
  | nil => exact (Nat.zero_add _).symm
  | cons t ss ih =>
      rw [List.cons_append, occurrences, occurrences, ih h.tail, Nat.add_assoc]
      simp only [h.prefix_iff]

theorem behind_append (h : Apart phrase ss ts) (hnone : occurrences phrase ss = 0) :
    behind phrase (ss ++ ts) = behind phrase ts := by
  induction ss with
  | nil => rfl
  | cons t ss ih =>
      rw [occurrences, Nat.add_eq_zero_iff] at hnone
      have elsewhere : ¬ ofText phrase <+: t :: ss := fun begun => by
        rw [if_pos begun] at hnone
        exact Nat.one_ne_zero hnone.1
      rw [List.cons_append, behind, if_neg (mt h.prefix_iff.mp elsewhere), ih h.tail hnone.2]

/-- A phrase does not begin with a sign that is not part of it. -/
theorem not_prefix_cons (hphrase : phrase ≠ "") (hs : s ∉ ofText phrase) :
    ¬ ofText phrase <+: s :: ts := by
  intro h
  obtain ⟨c, cs, hcs⟩ := List.exists_cons_of_ne_nil (mt String.toList_eq_nil_iff.mp hphrase)
  have begins : ofText (μ := List Char) phrase = .char c :: cs.map .char := by
    rw [ofText, hcs, List.map_cons]
  rw [begins, List.cons_prefix_cons] at h
  exact hs (begins ▸ h.1 ▸ List.mem_cons_self)

theorem occurrences_cons (hphrase : phrase ≠ "") (hs : s ∉ ofText phrase) :
    occurrences phrase (s :: ts) = occurrences phrase ts := by
  rw [occurrences, if_neg (not_prefix_cons hphrase hs), Nat.zero_add]

/-- The parts of a list are counted one by one. -/
theorem occurrences_lines (hphrase : phrase ≠ "")
    (hcomma : .char ',' ∉ ofText (μ := List Char) phrase)
    (hline : .char '\n' ∉ ofText (μ := List Char) phrase)
    (parts : List (List (Sign (List Char)))) :
    occurrences phrase ((ofText ",\n").intercalate parts) =
      (parts.map (occurrences phrase)).sum := by
  have separated (ss ts : List (Sign (List Char))) :
      occurrences phrase (ss ++ (ofText ",\n" ++ ts)) =
        occurrences phrase ss + occurrences phrase ts := by
    have apart : Apart phrase ss (ofText ",\n" ++ ts) := apart_of_not_mem hcomma
    rw [occurrences_append apart]
    exact congrArg _ ((occurrences_cons hphrase hcomma).trans (occurrences_cons hphrase hline))
  induction parts with
  | nil => rfl
  | cons p parts ih =>
      by_cases hparts : parts = []
      · simp [hparts, List.intercalate_singleton]
      · rw [List.intercalate_cons_of_ne_nil hparts, List.append_assoc, separated, ih]
        rfl

theorem behind_self (hphrase : phrase ≠ "") (ss : List (Sign (List Char))) :
    behind phrase (ofText phrase ++ ss) = ss := by
  obtain ⟨c, cs, hcs⟩ := List.exists_cons_of_ne_nil (mt String.toList_eq_nil_iff.mp hphrase)
  have begins : ofText (μ := List Char) phrase = .char c :: cs.map .char := by
    rw [ofText, hcs, List.map_cons]
  have here : ofText phrase <+: .char c :: (cs.map .char ++ ss) :=
    begins ▸ List.prefix_append _ ss
  rw [begins, List.cons_append, behind, if_pos here, begins]
  exact List.drop_left

/-! ## Lists in parentheses -/

/-- How many parentheses are open after a sign. -/
def depthAfter (depth : Nat) : Sign (List Char) → Nat
  | .char '(' => depth + 1
  | .char ')' => depth - 1
  | _ => depth

/-- The parts of a list in parentheses, up to the one that closes it. Between its commas, `depth`
parentheses of a part are open. -/
def listParts : Nat → List (Sign (List Char)) → List (List (Sign (List Char)))
  | _, [] => [[]]
  | depth, s :: ss =>
      if depth = 0 ∧ s = .char ',' then [] :: listParts 0 ss
      else if depth = 0 ∧ s = .char ')' then [[]]
      else (listParts (depthAfter depth s) ss).modifyHead (s :: ·)

/-- How many parentheses are open after signs that stay in one part of a list. -/
def nesting : Nat → List (Sign (List Char)) → Option Nat
  | depth, [] => some depth
  | depth, s :: ss =>
      if depth = 0 ∧ (s = .char ',' ∨ s = .char ')') then none
      else nesting (depthAfter depth s) ss

theorem nesting_append (depth : Nat) :
    nesting depth (ss ++ ts) = (nesting depth ss).bind (nesting · ts) := by
  induction ss generalizing depth with
  | nil => rfl
  | cons s ss ih =>
      rw [List.cons_append, nesting, nesting, ih]
      split <;> rfl

theorem nesting_intercalate {depth : Nat} {separator : List (Sign (List Char))}
    {parts : List (List (Sign (List Char)))} (hseparator : nesting depth separator = some depth)
    (h : ∀ p ∈ parts, nesting depth p = some depth) :
    nesting depth (separator.intercalate parts) = some depth := by
  induction parts with
  | nil => rfl
  | cons p parts ih =>
      obtain ⟨part, others⟩ := List.forall_mem_cons.mp h
      by_cases hparts : parts = []
      · rwa [hparts, List.intercalate_singleton]
      · rw [List.intercalate_cons_of_ne_nil hparts, nesting_append, nesting_append, part,
          Option.bind_some, hseparator, Option.bind_some, ih others]

theorem listParts_append {depth depth' : Nat} (h : nesting depth ss = some depth') :
    listParts depth (ss ++ ts) = (listParts depth' ts).modifyHead (ss ++ ·) := by
  induction ss generalizing depth with
  | nil =>
      cases h
      exact (congrFun List.modifyHead_id _).symm
  | cons s ss ih =>
      rw [nesting] at h
      split at h
      · cases h
      next inside =>
        have comma : ¬ (depth = 0 ∧ s = .char ',') := fun hs => inside ⟨hs.1, .inl hs.2⟩
        have close : ¬ (depth = 0 ∧ s = .char ')') := fun hs => inside ⟨hs.1, .inr hs.2⟩
        rw [List.cons_append, listParts, if_neg comma, if_neg close, ih h,
          List.modifyHead_modifyHead]
        rfl

theorem listParts_intercalate {parts : List (List (Sign (List Char)))} (hparts : parts ≠ [])
    (h : ∀ p ∈ parts, nesting 0 p = some 0) (rest : List (Sign (List Char))) :
    listParts 0 ([.char ','].intercalate parts ++ .char ')' :: rest) = parts := by
  induction parts with
  | nil => exact absurd rfl hparts
  | cons p parts ih =>
      have part := h p List.mem_cons_self
      have others := fun hne => ih hne fun q hq => h q (List.mem_cons_of_mem p hq)
      by_cases hne : parts = []
      · rw [hne, List.intercalate_singleton, listParts_append part]
        simp [listParts]
      · rw [List.intercalate_cons_of_ne_nil hne, List.append_assoc, List.append_assoc,
          listParts_append part, List.singleton_append, listParts, if_pos ⟨rfl, rfl⟩, others hne]
        simp

end Sign

/-! ## Parts of a definition -/

/-- What a part of the definition of a table declares. For a column it is read how often its
definition makes it the primary key. -/
inductive TablePart where
  | column (name : String) (primaryKeys : Nat)
  | primaryKey (columns : List String)
  | other
deriving DecidableEq, Repr

namespace Sign

/-- Names, with commas between them, up to the parenthesis that ends the signs. -/
def names? : List (Sign (List Char)) → Option (List String)
  | [.name s, .char ')'] => some [s]
  | .name s :: .char ',' :: .char ' ' :: ss => (names? ss).map (s :: ·)
  | _ => none

/-- A part that begins with a name defines a column. -/
def tablePart? (ss : List (Sign (List Char))) : Option TablePart :=
  match ss.dropWhile isBlank with
  | [] => none
  | .name s :: rest => some (.column s (occurrences "PRIMARY KEY" rest))
  | rest =>
      if ofText "PRIMARY KEY (" <+: rest then
        some (((names? (behind "PRIMARY KEY (" rest)).map .primaryKey).getD .other)
      else some .other

/-- What a text declares of the table that it creates. -/
def tableParts (ss : List (Sign (List Char))) : List TablePart :=
  (listParts 0 (((behind "CREATE TABLE" ss).dropWhile (· ≠ .char '(')).drop 1)).filterMap tablePart?

/-- Nothing is read of what stands before the definition. -/
theorem tableParts_append {ss ts : List (Sign (List Char))} (h : Apart "CREATE TABLE" ss ts)
    (hnone : occurrences "CREATE TABLE" ss = 0) : tableParts (ss ++ ts) = tableParts ts := by
  rw [tableParts, behind_append h hnone, tableParts]

theorem names?_intercalate {names : List String} (h : names ≠ []) :
    names? ((ofText ", ").intercalate (names.map ([.name ·])) ++ [.char ')']) = some names := by
  induction names with
  | nil => exact absurd rfl h
  | cons s names ih =>
      by_cases hnames : names = []
      · subst hnames
        rfl
      · have next (ss : List (Sign (List Char))) :
            names? ([.name s] ++ (ofText ", " ++ ss)) = (names? ss).map (s :: ·) := rfl
        rw [List.map_cons, List.intercalate_cons_of_ne_nil (by simpa using hnames),
          List.append_assoc, List.append_assoc, next, ih hnames]
        rfl

theorem tablePart?_primaryKey {names : List String} (h : names ≠ []) :
    tablePart? (ofText "PRIMARY KEY (" ++ ((ofText ", ").intercalate (names.map ([.name ·])) ++
      [.char ')'])) = some (.primaryKey names) := by
  have listed := names?_intercalate h
  generalize (ofText ", ").intercalate _ ++ [.char (μ := List Char) ')'] = list at listed ⊢
  have begins : ofText "PRIMARY KEY (" <+: ofText "PRIMARY KEY (" ++ list := List.prefix_append _ _
  have here : tablePart? (ofText "PRIMARY KEY (" ++ list) =
      if ofText "PRIMARY KEY (" <+: ofText "PRIMARY KEY (" ++ list then
        some (((names? (behind "PRIMARY KEY (" (ofText "PRIMARY KEY (" ++ list))).map
          .primaryKey).getD .other)
      else some .other := rfl
  rw [here, if_pos begins, behind_self (by decide), listed]
  rfl

/-- Where every part begins on a line of its own, the first one does as well. -/
theorem cons_intercalate_lines {parts : List (List (Sign (List Char)))} (h : parts ≠ []) :
    .char '\n' :: (ofText ",\n").intercalate parts =
      [.char ','].intercalate (parts.map (.char '\n' :: ·)) := by
  induction parts with
  | nil => exact absurd rfl h
  | cons p parts ih =>
      by_cases hparts : parts = []
      · subst hparts
        simp [List.intercalate_singleton]
      · rw [List.map_cons, List.intercalate_cons_of_ne_nil hparts,
          List.intercalate_cons_of_ne_nil (by simpa using hparts), ← ih hparts]
        simp [ofText]

/-- The parts of a definition are read one by one. -/
theorem tableParts_intercalate {head : List (Sign (List Char))}
    (hhead : ∀ s ∈ head, s ≠ .char '(') {parts : List (List (Sign (List Char)))}
    (h : ∀ p ∈ parts, nesting 0 p = some 0) (rest : List (Sign (List Char))) :
    tableParts (ofText "CREATE TABLE" ++ (head ++ (ofText "(\n" ++
      ((ofText ",\n").intercalate parts ++ .char ')' :: rest)))) = parts.filterMap tablePart? := by
  have skipped (body : List (Sign (List Char))) :
      ((head ++ (ofText "(\n" ++ body)).dropWhile (· ≠ Sign.char '(')).drop 1 =
        .char '\n' :: body := by
    rw [List.dropWhile_append_of_pos fun s hs => decide_eq_true (hhead s hs)]
    rfl
  rw [tableParts, behind_self (by decide), skipped]
  by_cases hparts : parts = []
  · subst hparts
    rfl
  have lines : ∀ p ∈ parts.map (Sign.char '\n' :: ·), nesting 0 p = some 0 := by
    intro p hp
    obtain ⟨q, hq, rfl⟩ := List.mem_map.mp hp
    exact h q hq
  rw [← List.cons_append, cons_intercalate_lines hparts,
    listParts_intercalate (by simpa using hparts) lines, List.filterMap_map]
  rfl

end Sign

end GraphStore
