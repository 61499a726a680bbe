import GraphStore.Proofs.Statement.Bindings

/-!
# Where placeholders stand

A query is read from left to right to find out where its placeholders stand. Keywords lead from one
part of the statement to another, and a placeholder belongs to the column named last, or in the
values of a new row to the column that is listed in its place. Only the words outside of names
count, so it does not matter what tables and columns are called.

A part is left at certain keywords alone: text without the characters of these, as between names or
in conditions, is read without leaving it (`after_still`). A condition that is written well is read
as what it is: its placeholders stand where its parameters are meant to (`Written.standings`).
-/

set_option autoImplicit false

namespace GraphStore

/-- The part of a statement that is read. -/
inductive Part where
  /-- What comes before the first condition, assignment or list of columns. -/
  | head
  /-- The columns of a new row, with those that have been read. -/
  | columns (read : List String)
  /-- What comes between the columns of a new row and its values. -/
  | listed (columns : List String)
  /-- The values of a new row, with the columns whose values are still to come. -/
  | values (left : List String)
  | on (join : Nat)
  | set
  | filter
deriving DecidableEq, Repr

namespace Part

/-- The part that a word leads to. -/
def keyword : Part → List Char → Part
  | head, ['J', 'O', 'I', 'N'] => on 0
  | head, ['S', 'E', 'T'] => set
  | head, ['W', 'H', 'E', 'R', 'E'] => filter
  | listed left, ['V', 'A', 'L', 'U', 'E', 'S'] => values left
  | on join, ['J', 'O', 'I', 'N'] => on (join + 1)
  | on _, ['W', 'H', 'E', 'R', 'E'] => filter
  | set, ['W', 'H', 'E', 'R', 'E'] => filter
  | part, _ => part

/-- The part that a character between words leads to. -/
def punctuation : Part → Char → Part
  | head, '(' => columns []
  | columns read, ')' => listed read
  | part, _ => part

/-- The part after a name. -/
def name : Part → String → Part
  | columns read, s => columns (read ++ [s])
  | part, _ => part

/-- The part after a placeholder. -/
def mark : Part → Part
  | values (_ :: left) => values left
  | part => part

/-- Where a placeholder stands when `last` is the name before it. -/
def standing (last : String) : Part → Option (Site × String)
  | values (column :: _) => some (.values, column)
  | on join => some (.on join, last)
  | set => some (.set, last)
  | filter => some (.filter, last)
  | _ => none

/-- The characters that the keywords at which the part is left have in them. -/
def heeds : Part → Char → Bool
  | head, c => c == 'J' || c == 'H' || c == 'T' || c == '('
  | columns _, c => c == ')'
  | listed _, c => c == 'V'
  | values _, _ => false
  | on _, c => c == 'J' || c == 'H'
  | set, c => c == 'H'
  | filter, _ => false

/-- The part is the same after names and placeholders. -/
def isSteady : Part → Bool
  | columns _ => false
  | values _ => false
  | _ => true

variable {part : Part}

/-- A word without characters that are heeded is no keyword. -/
theorem keyword_eq {word : List Char} (h : ∀ c ∈ word, part.heeds c = false) :
    part.keyword word = part := by
  unfold keyword
  split
  case h_8 => rfl
  all_goals simp [heeds] at h

theorem punctuation_eq {c : Char} (h : part.heeds c = false) : part.punctuation c = part := by
  unfold punctuation
  split
  case h_3 => rfl
  all_goals simp [heeds] at h

theorem name_eq (h : part.isSteady = true) (s : String) : part.name s = part := by
  cases part <;> first | rfl | cases h

theorem mark_eq (h : part.isSteady = true) : part.mark = part := by
  cases part <;> first | rfl | cases h

end Part

/-- How far a query has been read: the part, the name read last, and the word that is being read. -/
structure Reading where
  part : Part := .head
  last : String := ""
  word : List Char := []

namespace Reading

variable {μ : Type}

def step (r : Reading) : Sign μ → Reading
  | .char c =>
      if isWordChar c then { r with word := r.word ++ [c] }
      else { r with part := (r.part.keyword r.word).punctuation c, word := [] }
  | .name s => { part := (r.part.keyword r.word).name s, last := s, word := [] }
  | .mark _ => { r with part := (r.part.keyword r.word).mark, word := [] }

/-- The reading after further signs. -/
def after (r : Reading) (ss : List (Sign μ)) : Reading := ss.foldl step r

/-- Where the placeholders stand that are still to be read. -/
def standings : Reading → List (Sign μ) → List (Option (Site × String))
  | _, [] => []
  | r, .char c :: ss => standings (r.step (.char c : Sign μ)) ss
  | r, .name s :: ss => standings (r.step (.name s : Sign μ)) ss
  | r, .mark m :: ss =>
      (r.part.keyword r.word).standing r.last :: standings (r.step (.mark m)) ss

variable {r : Reading} {ss ts : List (Sign μ)}

theorem after_append (r : Reading) (ss ts : List (Sign μ)) :
    r.after (ss ++ ts) = (r.after ss).after ts :=
  List.foldl_append

theorem standings_append (r : Reading) (ss ts : List (Sign μ)) :
    r.standings (ss ++ ts) = r.standings ss ++ (r.after ss).standings ts := by
  induction ss generalizing r with
  | nil => rfl
  | cons s ss ih =>
      cases s with
      | char c => exact ih (r.step (.char c))
      | name s => exact ih (r.step (.name s))
      | mark m => exact congrArg (_ :: ·) (ih (r.step (.mark m)))

theorem standings_of_marks_eq_nil (h : Sign.marks ss = []) (r : Reading) : r.standings ss = [] := by
  induction ss generalizing r with
  | nil => rfl
  | cons s ss ih =>
      cases s with
      | char c => exact ih h (r.step (.char c))
      | name s => exact ih h (r.step (.name s))
      | mark m => cases h

/-- What is known of the placeholders does not matter. -/
theorem standings_marked (d : Dialect) (count : Nat) (r : Reading) (ss : List (Sign Param)) :
    r.standings (d.marked count ss) = r.standings ss := by
  induction ss generalizing r count with
  | nil => rfl
  | cons s ss ih =>
      cases s with
      | char c => exact ih count (r.step (.char c : Sign Param))
      | name s => exact ih count (r.step (.name s : Sign Param))
      | mark p => exact congrArg (_ :: ·) (ih (d.countParam count) (r.step (.mark p)))

/-! ## Staying in a part -/

/-- The word that is being read is no keyword. -/
def Calm (r : Reading) : Prop := ∀ c ∈ r.word, r.part.heeds c = false

/-- The reading is in the part, and the word that is being read leads nowhere. -/
def IsIn (r : Reading) (part : Part) : Prop := r.part = part ∧ r.Calm

/-- The reading is between two words of the part. -/
def IsAt (r : Reading) (part : Part) : Prop := r.part = part ∧ r.word = []

theorem IsAt.isIn {part : Part} (h : r.IsAt part) : r.IsIn part :=
  ⟨h.1, by simp [Calm, h.2]⟩

/-- A sign that the part does not heed. -/
def IsStill (part : Part) : Sign μ → Prop
  | .char c => part.heeds c = false
  | _ => True

theorem isIn_step {part : Part} (hr : r.IsIn part) (hsteady : part.isSteady = true) {s : Sign μ}
    (hs : IsStill part s) : (r.step s).IsIn part := by
  obtain ⟨rfl, calm⟩ := hr
  have keyword := Part.keyword_eq calm
  cases s with
  | char c =>
      by_cases hword : isWordChar c = true
      · rw [step, if_pos hword]
        refine ⟨rfl, fun c' hc' => ?_⟩
        rcases List.mem_append.mp hc' with hc' | hc'
        · exact calm c' hc'
        · rw [List.mem_singleton.mp hc']
          exact hs
      · rw [step, if_neg hword, keyword, Part.punctuation_eq hs]
        exact IsAt.isIn ⟨rfl, rfl⟩
  | name n => exact IsAt.isIn ⟨by rw [step, keyword, Part.name_eq hsteady], rfl⟩
  | mark m => exact IsAt.isIn ⟨by rw [step, keyword, Part.mark_eq hsteady], rfl⟩

/-- A part is not left at signs that it does not heed. -/
theorem isIn_after {part : Part} (hr : r.IsIn part) (hsteady : part.isSteady = true)
    (hss : ∀ s ∈ ss, IsStill part s) : (r.after ss).IsIn part := by
  induction ss generalizing r with
  | nil => exact hr
  | cons s ss ih =>
      exact ih (isIn_step hr hsteady (hss s List.mem_cons_self)) fun s' hs' =>
        hss s' (List.mem_cons_of_mem s hs')

end Reading

/-! ## Conditions -/

/-- A part in which placeholders stand at the site, with the column named last. -/
structure Part.IsCondition (part : Part) (site : Site) : Prop where
  steady : part.isSteady = true
  heeds_eq : ∀ c, isConditionChar c = true → part.heeds c = false
  standing_eq : ∀ last, part.standing last = some (site, last)

theorem Part.isCondition_on (join : Nat) : (on join).IsCondition (.on join) where
  steady := rfl
  heeds_eq c h := by
    simp only [isConditionChar, Bool.and_eq_true, bne_iff_ne] at h
    simp [heeds, h.1.2, h.2]
  standing_eq _ := rfl

theorem Part.isCondition_filter : filter.IsCondition .filter := ⟨rfl, fun _ _ => rfl, fun _ => rfl⟩

namespace Reading

variable {r : Reading} {part : Part} {site : Site}

/-- A column is read without leaving the part, and is the one named last. -/
theorem isIn_after_column (hpart : part.IsCondition site) (hr : r.IsIn part) (c : ColumnToken)
    (context : Context) : (r.after (Piece.signs (c.pieces context))).IsIn part ∧
      (r.after (Piece.signs (c.pieces context))).last = c.column := by
  refine ⟨isIn_after hr hpart.steady fun s hs => ?_, ?_⟩
  · have dot : part.heeds '.' = false := hpart.heeds_eq '.' (by decide)
    unfold ColumnToken.pieces at hs
    split at hs
    · have listed : s ∈ [.name c.table, .char '.', .name c.column] := hs
      simp only [List.mem_cons, List.not_mem_nil, or_false] at listed
      rcases listed with rfl | rfl | rfl
      · trivial
      · exact dot
      · trivial
    · rw [List.mem_singleton.mp hs]
      trivial
  · rw [ColumnToken.pieces, Piece.signs_append, after_append]
    rfl

end Reading

/-- **The placeholders of a condition stand where its parameters are meant to.** The reading stays
in its part. -/
theorem Written.standings {s t : Spot} {gs : List Glyph} (h : Written s gs t) (context : Context)
    {part : Part} {site : Site} (hpart : part.IsCondition site) {r : Reading} (hr : r.IsIn part)
    {last : String} (hlast : ∀ column, s.column = some column → column = last ∧ column = r.last) :
    r.standings (gs.flatMap (Glyph.signs context)) =
        (bindingsFrom site last gs).map (fun b => some (b.site, b.column)) ∧
      (r.after (gs.flatMap (Glyph.signs context))).IsIn part := by
  induction h generalizing r last with
  | nil => exact ⟨rfl, hr⟩
  | @char s t c gs plain apart rest ih =>
      have next : (r.step (.char c : Sign Param)).IsIn part :=
        Reading.isIn_step hr hpart.steady (hpart.heeds_eq c plain)
      refine ih next fun column hcolumn => ?_
      have same : (r.step (.char c : Sign Param)).last = r.last := by
        rw [Reading.step]
        split <;> rfl
      rw [same]
      exact hlast column hcolumn
  | @column s t c gs apart rest ih =>
      have next := Reading.isIn_after_column hpart hr c context
      have markless : Sign.marks (Piece.signs (c.pieces context)) = [] := by
        rw [Piece.marks_signs, c.params_pieces]
      have read := @ih _ next.1 c.column fun column hcolumn => by
        rw [next.2]
        exact ⟨(Option.some.inj hcolumn).symm, (Option.some.inj hcolumn).symm⟩
      rw [List.flatMap_cons, Reading.standings_append, Reading.after_append, Glyph.signs,
        Reading.standings_of_marks_eq_nil markless]
      exact read
  | @param s t column v gs apart hcolumn rest ih =>
      obtain ⟨rfl, same⟩ := hlast column hcolumn
      have next : (r.step (.mark (⟨numberedName column s.count, v⟩ : Param))).IsIn part :=
        Reading.isIn_step hr hpart.steady trivial
      have read := ih next hlast
      have standing : (r.part.keyword r.word).standing r.last = some (site, column) := by
        rw [Part.keyword_eq hr.2, hr.1, hpart.standing_eq, same]
      refine ⟨?_, read.2⟩
      rw [List.flatMap_cons, bindingsFrom, List.map_cons, ← read.1, ← standing]
      rfl

end GraphStore
