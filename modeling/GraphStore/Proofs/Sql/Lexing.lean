import GraphStore.Sql.Fragment
import GraphStore.Predicate.Basic
import GraphStore.Text.Numeral

/-!
# The lexemes of a fragment

A fragment is read as text in which columns and parameters stand as single signs. How its text is
divided among tokens does not matter for that: neighbouring texts run together, and the lexemes of
a fragment are cut from the whole. Letters, digits and signs of comparison form words as long as
they last; blanks only separate.

Fragments put together have the lexemes of their parts (`lexemes_append`), unless a word of one
runs into a word of the other.
-/

set_option autoImplicit false

namespace GraphStore

/-! ## Glyphs -/

/-- What a text consists of once columns and parameters are single signs. -/
inductive Glyph where
  | char (c : Char)
  | column (c : ColumnToken)
  | param (p : Param)
deriving DecidableEq, Repr

def Token.glyphs : Token → List Glyph
  | .text s => s.toList.map .char
  | .column c => [.column c]
  | .param p => [.param p]

namespace Fragment

def glyphs (f : Fragment) : List Glyph := f.tokens.flatMap Token.glyphs

@[simp] theorem glyphs_empty : empty.glyphs = [] := rfl

@[simp] theorem glyphs_ofColumn (c : ColumnToken) : (ofColumn c).glyphs = [.column c] := rfl

@[simp] theorem glyphs_ofParam (p : Param) : (ofParam p).glyphs = [.param p] := rfl

/-- Merging a text into the last token does not change what is written. -/
theorem glyphs_addText (tokens : List Token) (s : String) :
    (addText tokens s).flatMap Token.glyphs =
      tokens.flatMap Token.glyphs ++ s.toList.map .char := by
  fun_induction addText tokens s with
  | case1 tokens h =>
      have : s = "" := by simpa using h
      simp [this]
  | case2 h => simp [Token.glyphs]
  | case3 h last => simp [Token.glyphs]
  | case4 h t rest _ ih =>
      rw [List.flatMap_cons, ih, List.flatMap_cons, List.append_assoc]

@[simp] theorem glyphs_ofText (s : String) : (ofText s).glyphs = s.toList.map .char := by
  simp [ofText, pushText, glyphs, glyphs_addText, empty]

theorem glyphs_push (f : Fragment) (t : Token) : (f.push t).glyphs = f.glyphs ++ t.glyphs := by
  cases t <;>
    simp [push, pushText, pushColumn, pushParam, glyphs, glyphs_addText, Token.glyphs]

@[simp] theorem glyphs_append (f g : Fragment) : (f ++ g).glyphs = f.glyphs ++ g.glyphs := by
  -- tokens are pushed one by one, with texts merged; the glyphs do not show it
  have key : ∀ (ts : List Token) (f : Fragment),
      (ts.foldl push f).glyphs = f.glyphs ++ ts.flatMap Token.glyphs := by
    intro ts
    induction ts with
    | nil => intro f; simp
    | cons t ts ih => intro f; simp [ih, glyphs_push]
  exact key g.tokens f

end Fragment

/-! ## Words -/

/-- The signs that comparisons are written with. -/
def isComparisonSign (c : Char) : Bool := c == '<' || c == '>' || c == '='

/-- Whether a word goes on from one character to the next. -/
def goesOn (c d : Char) : Bool :=
  (c.isAlpha && d.isAlpha) || (c.isDigit && d.isDigit) ||
    (isComparisonSign c && isComparisonSign d)

/-- A word, or a single sign. -/
inductive Word where
  | text (cs : List Char)
  | column (c : ColumnToken)
  | param (p : Param)
deriving DecidableEq, Repr

/-- Whether the first character of `gs` goes on with the word of `c`. -/
def continues (c : Char) : List Glyph → Bool
  | .char d :: _ => goesOn c d
  | _ => false

/-- A character in front of the first word. -/
def extend (c : Char) : List Word → List Word
  | .text cs :: ws => .text (c :: cs) :: ws
  | ws => .text [c] :: ws

/-- The words of a text. -/
def words : List Glyph → List Word
  | [] => []
  | .column c :: rest => .column c :: words rest
  | .param p :: rest => .param p :: words rest
  | .char c :: rest =>
      if c = ' ' then words rest
      else if continues c rest then extend c (words rest)
      else .text [c] :: words rest

/-- No word of `a` runs into a word of `b`. -/
def Apart (a b : List Glyph) : Prop :=
  ∀ c, a.getLast? = some (.char c) → continues c b = false

theorem goesOn_ne_blank {c d : Char} (h : goesOn c d = true) : d ≠ ' ' := by
  rintro rfl
  have h1 : Char.isAlpha ' ' = false := by decide
  have h2 : Char.isDigit ' ' = false := by decide
  have h3 : isComparisonSign ' ' = false := by decide
  simp [goesOn, h1, h2, h3] at h

theorem exists_extend (c : Char) (ws : List Word) :
    ∃ cs ws', extend c ws = .text cs :: ws' := by
  unfold extend
  split
  · exact ⟨_, _, rfl⟩
  · exact ⟨_, _, rfl⟩

/-- A text that goes on with a word starts with one. -/
theorem exists_words_of_continues {c : Char} {gs : List Glyph} (h : continues c gs = true) :
    ∃ cs ws, words gs = .text cs :: ws := by
  cases gs with
  | nil => simp [continues] at h
  | cons g rest =>
      cases g with
      | column c' => simp [continues] at h
      | param p => simp [continues] at h
      | char d =>
          rw [words, if_neg (goesOn_ne_blank h)]
          split
          · exact exists_extend d (words rest)
          · exact ⟨_, _, rfl⟩

theorem Apart.of_cons {g : Glyph} {a b : List Glyph} (h : Apart (g :: a) b) : Apart a b := by
  intro c hc
  apply h c
  rw [List.getLast?_cons, hc]
  rfl

theorem words_append {a b : List Glyph} (h : Apart a b) : words (a ++ b) = words a ++ words b := by
  induction a with
  | nil => rfl
  | cons g a ih =>
      have ih := ih h.of_cons
      cases g with
      | column c => simp [words, ih]
      | param p => simp [words, ih]
      | char c =>
          rw [List.cons_append, words, words, ih]
          -- the next glyph is in `b` when `a` is empty; there the word of `c` ends
          have next : continues c (a ++ b) = continues c a := by
            cases a with
            | nil => exact h c rfl
            | cons g' a => cases g' <;> rfl
          rw [next]
          split
          · rfl
          · split
            next hc =>
              obtain ⟨cs, ws, hw⟩ := exists_words_of_continues hc
              simp [hw, extend]
            next => rfl

/-! ## Lexemes -/

/-- A lexeme of a condition: a keyword, a sign, a number, a column or a parameter. -/
inductive Lexeme where
  | and | or | not | is | null | like | among
  | opening | closing | comma
  | compare (op : CompareOp)
  | number (n : Nat)
  | column (c : ColumnToken)
  | param (p : Param)
  /-- A word that conditions do not have. -/
  | other (cs : List Char)
deriving DecidableEq, Repr

/-- The keyword, sign or number that a word is. -/
def lexemeOfText : List Char → Lexeme
  | ['A', 'N', 'D'] => .and
  | ['O', 'R'] => .or
  | ['N', 'O', 'T'] => .not
  | ['I', 'S'] => .is
  | ['N', 'U', 'L', 'L'] => .null
  | ['L', 'I', 'K', 'E'] => .like
  | ['I', 'N'] => .among
  | ['('] => .opening
  | [')'] => .closing
  | [','] => .comma
  | ['='] => .compare .equal
  | ['<', '>'] => .compare .notEqual
  | ['<'] => .compare .less
  | ['<', '='] => .compare .lessEqual
  | ['>'] => .compare .greater
  | ['>', '='] => .compare .greaterEqual
  | cs => if cs.all Text.isDigit then .number (Text.readDigits 0 cs) else .other cs

def Word.lexeme : Word → Lexeme
  | text cs => lexemeOfText cs
  | column c => .column c
  | param p => .param p

/-- The lexemes of a text. -/
def lexemesOf (gs : List Glyph) : List Lexeme := (words gs).map Word.lexeme

theorem lexemesOf_append {a b : List Glyph} (h : Apart a b) :
    lexemesOf (a ++ b) = lexemesOf a ++ lexemesOf b := by
  simp [lexemesOf, words_append h]

namespace Fragment

def lexemes (f : Fragment) : List Lexeme := lexemesOf f.glyphs

@[simp] theorem lexemes_ofColumn (c : ColumnToken) : (ofColumn c).lexemes = [.column c] := rfl

@[simp] theorem lexemes_ofParam (p : Param) : (ofParam p).lexemes = [.param p] := rfl

/-! ## Putting fragments together -/

/-- A word never goes on with the first character of the fragment. -/
def OpensApart (f : Fragment) : Prop := ∀ c, continues c f.glyphs = false

/-- The last character of the fragment never goes on. -/
def ClosesApart (f : Fragment) : Prop :=
  ∀ c d, f.glyphs.getLast? = some (.char c) → goesOn c d = false

theorem lexemes_append {f g : Fragment} (h : f.ClosesApart ∨ g.OpensApart) :
    (f ++ g).lexemes = f.lexemes ++ g.lexemes := by
  unfold lexemes
  rw [glyphs_append]
  apply lexemesOf_append
  intro c hc
  rcases h with h | h
  · unfold continues
    split
    · exact h c _ hc
    · rfl
  · exact h c

/-- The characters that are words of their own, and the blank. -/
def isSeparator (c : Char) : Bool := c == ' ' || c == '(' || c == ')' || c == ','

def opensSeparated (s : String) : Bool := s.toList.head?.all isSeparator

def closesSeparated (s : String) : Bool := s.toList.getLast?.all isSeparator

theorem goesOn_separator_right {c d : Char} (h : isSeparator d = true) : goesOn c d = false := by
  simp only [isSeparator, Bool.or_eq_true, beq_iff_eq] at h
  rcases h with ((rfl | rfl) | rfl) | rfl <;> simp [goesOn, isComparisonSign]

theorem goesOn_separator_left {c d : Char} (h : isSeparator c = true) : goesOn c d = false := by
  simp only [isSeparator, Bool.or_eq_true, beq_iff_eq] at h
  rcases h with ((rfl | rfl) | rfl) | rfl <;> simp [goesOn, isComparisonSign]

theorem opensApart_ofText {s : String} (h : opensSeparated s = true) :
    (ofText s).OpensApart := by
  intro c
  rw [glyphs_ofText]
  cases hs : s.toList with
  | nil => rfl
  | cons d ds =>
      rw [opensSeparated, hs] at h
      exact goesOn_separator_right h

theorem closesApart_ofText {s : String} (h : closesSeparated s = true) :
    (ofText s).ClosesApart := by
  intro c d hc
  rw [glyphs_ofText, List.getLast?_map] at hc
  obtain ⟨c', hc', heq⟩ := Option.map_eq_some_iff.mp hc
  cases heq
  rw [closesSeparated, hc'] at h
  exact goesOn_separator_left h

theorem closesApart_ofParam (p : Param) : (ofParam p).ClosesApart := by
  intro c d hc
  cases hc

theorem ClosesApart.append {g : Fragment} (h : g.ClosesApart) (hg : g.glyphs ≠ []) (f : Fragment) :
    (f ++ g).ClosesApart := by
  intro c d hc
  apply h c d
  rwa [glyphs_append, List.getLast?_append, Option.or_of_isSome (by simpa using hg)] at hc

end Fragment

end GraphStore
