import GraphStore.Proofs.Outcome
import GraphStore.Proofs.Sql.Lexing
import GraphStore.Proofs.Sql.Scanning
import GraphStore.Sql.Context

/-!
# How conditions are written

The fragments of statements are written glyph by glyph, and `Written` is the judgement that they
are written well: a column or a parameter is followed by a terminator; a parameter comes after the
column it is meant for, and it is named by that column and the number of parameters before it. Runs
of glyphs are put together by `Written.append`, and fragments by the lemmas on `IsCondition`, so
that nothing else has to be known of the fragments that statements are built from.
-/

set_option autoImplicit false

namespace GraphStore

/-- Where one is while a condition is written: the number of parameters so far, the column that was
mentioned last, and whether a column or a parameter has just been written. -/
structure Spot where
  count : UInt32
  column : Option String
  afterSign : Bool

/-- The name of the parameter for a column that has `count` others before it. -/
def numberedName (column : String) (count : UInt32) : String := column ++ "_" ++ toString count

/-- So many counts from `a` on. They begin again at zero after the last number of 32 bits. -/
def countsFrom (a : UInt32) : Nat → List UInt32
  | 0 => []
  | n + 1 => a :: countsFrom (a + 1) n

theorem count_succ (a : UInt32) (n : Nat) : a + UInt32.ofNat (n + 1) = a + 1 + UInt32.ofNat n := by
  rw [UInt32.ofNat_add, UInt32.add_comm (UInt32.ofNat n), ← UInt32.add_assoc]
  rfl

theorem countsFrom_add (a : UInt32) (m n : Nat) :
    countsFrom a (m + n) = countsFrom a m ++ countsFrom (a + UInt32.ofNat m) n := by
  induction m generalizing a with
  | zero =>
      rw [Nat.zero_add, countsFrom, List.nil_append]
      exact congrArg (countsFrom · n) (UInt32.add_zero a).symm
  | succ m ih => rw [Nat.add_right_comm, countsFrom, ih, countsFrom, count_succ, List.cons_append]

/-- Counts from a number on are those of the numbers from there on. -/
theorem countsFrom_ofNat (k n : Nat) :
    countsFrom (UInt32.ofNat k) n = (List.range' k n).map UInt32.ofNat := by
  induction n generalizing k with
  | zero => rfl
  | succ n ih =>
      rw [countsFrom, List.range'_succ, List.map_cons, ← ih (k + 1), UInt32.ofNat_add]
      rfl

/-- The characters of conditions. They are plain, and the keywords at which conditions begin have
others in them. -/
def isConditionChar (c : Char) : Bool := isPlain c && c != 'J' && c != 'H'

/-- The glyphs can be written at the first spot, and lead to the second. -/
inductive Written : Spot → List Glyph → Spot → Prop where
  | nil (s : Spot) : Written s [] s
  | char {s t : Spot} {c : Char} {gs : List Glyph} (plain : isConditionChar c = true)
      (apart : s.afterSign = true → isTerminator c = true)
      (rest : Written { s with afterSign := false } gs t) : Written s (.char c :: gs) t
  | column {s t : Spot} {c : ColumnToken} {gs : List Glyph} (apart : s.afterSign = false)
      (rest : Written { s with column := some c.column, afterSign := true } gs t) :
      Written s (.column c :: gs) t
  | param {s t : Spot} {column : String} {v : Value} {gs : List Glyph}
      (apart : s.afterSign = false) (last : s.column = some column)
      (rest : Written { s with count := s.count + 1, afterSign := true } gs t) :
      Written s (.param ⟨numberedName column s.count, v⟩ :: gs) t

namespace Written

variable {s t u : Spot} {gs hs : List Glyph}

theorem append (h : Written s gs t) (h' : Written t hs u) : Written s (gs ++ hs) u := by
  induction h with
  | nil => exact h'
  | char plain apart rest ih => exact .char plain apart (ih h')
  | column apart rest ih => exact .column apart (ih h')
  | param apart last rest ih => exact .param apart last (ih h')

/-- A text in which no sign is needed before it, or which begins with a terminator. -/
theorem text {cs : List Char} (hplain : cs.all isConditionChar = true)
    (hopen : s.afterSign = true → cs.head?.all isTerminator = true) (hne : cs ≠ []) :
    Written s (cs.map .char) { s with afterSign := false } := by
  induction cs generalizing s with
  | nil => exact absurd rfl hne
  | cons c cs ih =>
      rw [List.all_cons, Bool.and_eq_true] at hplain
      refine .char hplain.1 (fun h => by simpa using hopen h) ?_
      cases cs with
      | nil => exact .nil _
      | cons c' cs => exact ih hplain.2 (by simp) (by simp)

/-- Other tables may stand in for those of the columns. -/
theorem mapColumns {g : ColumnToken → ColumnToken} (hg : ∀ c, (g c).column = c.column)
    (h : Written s gs t) :
    Written s (gs.map fun | .column c => .column (g c) | x => x) t := by
  induction h with
  | nil => exact .nil _
  | char plain apart rest ih => exact .char plain apart ih
  | column apart rest ih =>
      rw [← hg] at ih
      exact .column apart ih
  | param apart last rest ih => exact .param apart last ih

end Written

/-! ## The signs of conditions -/

/-- The signs that a glyph is written as. -/
def Glyph.signs (context : Context) : Glyph → List (Sign Param)
  | char c => [.char c]
  | column c => Piece.signs (c.pieces context)
  | param p => [.mark p]

theorem Token.signs_pieces (t : Token) (context : Context) :
    Piece.signs (t.pieces context) = t.glyphs.flatMap (Glyph.signs context) := by
  cases t with
  | text s =>
      rw [pieces, Piece.signs_cons, Piece.signs_nil, List.append_nil, Piece.toSigns, Sign.ofText,
        glyphs, List.flatMap_map, List.map_eq_flatMap]
      rfl
  | column c => simp [pieces, glyphs, Glyph.signs]
  | param p => rfl

theorem Fragment.signs_pieces (f : Fragment) (context : Context) :
    Piece.signs (f.pieces context) = f.glyphs.flatMap (Glyph.signs context) := by
  unfold pieces glyphs
  induction f.tokens with
  | nil => rfl
  | cons t ts ih =>
      rw [List.flatMap_cons, Piece.signs_append, ih, List.flatMap_cons, List.flatMap_append,
        t.signs_pieces]

open Sign in
/-- What is written well is legible. -/
theorem Written.legible {s t : Spot} {gs : List Glyph} (h : Written s gs t) (context : Context) :
    Legible (gs.flatMap (Glyph.signs context)) ∧
      (s.afterSign = true → Opens (gs.flatMap (Glyph.signs context))) := by
  induction h with
  | nil => exact ⟨.nil, fun _ => opens_nil⟩
  | char plain apart rest ih =>
      rw [isConditionChar, Bool.and_eq_true, Bool.and_eq_true] at plain
      exact ⟨.char plain.1.1 ih.1, fun h => opens_char (apart h) _⟩
  | @column s t c gs apart rest ih =>
      refine ⟨?_, fun h => by simp [apart] at h⟩
      have column : Legible (.name c.column :: gs.flatMap (Glyph.signs context)) :=
        .name (ih.2 rfl) ih.1
      rw [List.flatMap_cons, Glyph.signs, ColumnToken.pieces]
      split
      · exact .name (opens_char (by decide) _) (.char (by decide) column)
      · exact column
  | param apart last rest ih =>
      exact ⟨.mark (ih.2 rfl) ih.1, fun h => by simp [apart] at h⟩

namespace Fragment

/-- The fragment can be written where no sign has just been, when there are `a` parameters; then
there are `b`. -/
def IsCondition (a : UInt32) (f : Fragment) (b : UInt32) : Prop :=
  ∀ s : Spot, s.count = a → s.afterSign = false → ∃ t, t.count = b ∧ Written s f.glyphs t

/-- The same for a fragment that can be written anywhere. -/
def IsContinuation (a : UInt32) (f : Fragment) (b : UInt32) : Prop :=
  ∀ s : Spot, s.count = a → ∃ t, t.count = b ∧ Written s f.glyphs t

/-- The fragments are written one after another, with other glyphs between them. -/
inductive AreConditions : UInt32 → List Fragment → UInt32 → Prop where
  | nil (a : UInt32) : AreConditions a [] a
  | cons {a b c : UInt32} {f : Fragment} {fs : List Fragment} (head : f.IsCondition a b)
      (tail : AreConditions b fs c) : AreConditions a (f :: fs) c

/-- A text that may stand after a condition. -/
def joins (text : String) : Bool :=
  text.toList.all isConditionChar && text.toList.head?.any isTerminator

variable {a b c : UInt32} {f g : Fragment} {fs : List Fragment}

theorem written_of_joins {text : String} (h : joins text = true) (s : Spot) :
    Written s (text.toList.map .char) { s with afterSign := false } := by
  rw [joins, Bool.and_eq_true] at h
  cases hcs : text.toList with
  | nil => simp [hcs] at h
  | cons c cs =>
      rw [hcs] at h
      exact .text h.1 (fun _ => by simpa using h.2) (by simp)

/-- How the texts of a fragment are divided does not matter. -/
theorem IsCondition.congr (hf : f.IsCondition a b) (h : g.glyphs = f.glyphs) :
    g.IsCondition a b := by
  intro s hs hsign
  rw [h]
  exact hf s hs hsign

theorem IsContinuation.congr (hf : f.IsContinuation a b) (h : g.glyphs = f.glyphs) :
    g.IsContinuation a b := by
  intro s hs
  rw [h]
  exact hf s hs

theorem IsContinuation.isCondition (h : f.IsContinuation a b) : f.IsCondition a b :=
  fun s hs _ => h s hs

theorem isContinuation_empty (a : UInt32) : empty.IsContinuation a a :=
  fun s hs => ⟨s, hs, .nil s⟩

theorem isContinuation_ofText (text : String) (h : joins text = true) (a : UInt32) :
    (ofText text).IsContinuation a a := by
  rintro s rfl
  rw [glyphs_ofText]
  exact ⟨{ s with afterSign := false }, rfl, written_of_joins h s⟩

theorem isCondition_ofText (text : String) (h : text.toList.all isConditionChar = true)
    (a : UInt32) : (ofText text).IsCondition a a := by
  rintro s rfl hs
  rw [glyphs_ofText]
  cases hcs : text.toList with
  | nil => exact ⟨s, rfl, .nil s⟩
  | cons c cs =>
      rw [hcs] at h
      exact ⟨{ s with afterSign := false }, rfl, .text h (by simp [hs]) (by simp)⟩

theorem IsCondition.append (hf : f.IsCondition a b) (hg : g.IsContinuation b c) :
    (f ++ g).IsCondition a c := by
  intro s hs hsign
  obtain ⟨t, ht, hf⟩ := hf s hs hsign
  obtain ⟨u, hu, hg⟩ := hg t ht
  rw [glyphs_append]
  exact ⟨u, hu, hf.append hg⟩

theorem IsContinuation.append (hf : f.IsContinuation a b) (hg : g.IsContinuation b c) :
    (f ++ g).IsContinuation a c := by
  intro s hs
  obtain ⟨t, ht, hf⟩ := hf s hs
  obtain ⟨u, hu, hg⟩ := hg t ht
  rw [glyphs_append]
  exact ⟨u, hu, hf.append hg⟩

/-- A condition and another one, with a text between them. -/
theorem IsCondition.between (hf : f.IsCondition a b) (text : String) (h : joins text = true)
    (hg : g.IsCondition b c) : (f ++ ofText text ++ g).IsCondition a c := by
  intro s hs hsign
  obtain ⟨t, ht, first⟩ := hf s hs hsign
  obtain ⟨u, hu, second⟩ := hg { t with afterSign := false } ht rfl
  rw [glyphs_append, glyphs_append, glyphs_ofText]
  exact ⟨u, hu, (first.append (written_of_joins h t)).append second⟩

/-- A condition behind a text that leads on to it. -/
theorem IsCondition.lead (hf : f.IsCondition a b) (text : String) (h : joins text = true) :
    (ofText text ++ f).IsContinuation a b := by
  intro s hs
  obtain ⟨t, ht, written⟩ := hf { s with afterSign := false } hs rfl
  rw [glyphs_append, glyphs_ofText]
  exact ⟨t, ht, (written_of_joins h s).append written⟩

theorem IsCondition.joined (separator : String) (h : joins separator = true)
    (hfs : AreConditions a fs b) : (joined separator fs).IsCondition a b := by
  induction hfs with
  | nil a => exact (isContinuation_empty a).isCondition
  | @cons a b c f fs hf hfs ih =>
      cases hfs with
      | nil => exact hf
      | cons hg hgs => exact hf.between separator h ih

theorem IsCondition.parentheses (hf : f.IsCondition a b) :
    (ofText "(" ++ f ++ ofText ")").IsCondition a b := by
  intro s hs hsign
  obtain ⟨t, ht, hf⟩ := hf { s with afterSign := false } hs rfl
  obtain ⟨u, hu, hclose⟩ := isContinuation_ofText ")" (by decide) b t ht
  have hopen : Written s ("(".toList.map .char) { s with afterSign := false } :=
    .text (by decide) (by simp [hsign]) (by decide)
  rw [glyphs_append, glyphs_append, glyphs_ofText]
  exact ⟨u, hu, (hopen.append hf).append hclose⟩

/-- Other tables may stand in for those of the columns. -/
theorem IsCondition.mapColumns {g : ColumnToken → ColumnToken} (hg : ∀ c, (g c).column = c.column)
    (h : f.IsCondition a b) : (f.mapColumns g).IsCondition a b := by
  intro s hs hsign
  obtain ⟨t, ht, written⟩ := h s hs hsign
  refine ⟨t, ht, ?_⟩
  have glyphs_eq : (f.mapColumns g).glyphs =
      f.glyphs.map fun | .column c => .column (g c) | x => x := by
    unfold Fragment.mapColumns glyphs
    induction f.tokens with
    | nil => rfl
    | cons t ts ih =>
        rw [List.map_cons, List.flatMap_cons, ih, List.flatMap_cons, List.map_append]
        cases t <;> simp [Token.glyphs]
  rw [glyphs_eq]
  exact written.mapColumns hg

theorem IsCondition.legible (h : f.IsCondition a b) (context : Context) :
    Sign.Legible (Piece.signs (f.pieces context)) := by
  obtain ⟨t, -, written⟩ := h ⟨a, none, false⟩ rfl rfl
  rw [signs_pieces]
  exact (written.legible context).1

/-! ## Columns and their parameters -/

/-- The spot after a column and a text. -/
def afterColumn (s : Spot) (column : ColumnToken) : Spot :=
  { s with column := some column.column, afterSign := false }

theorem written_column {text : String} (h : joins text = true) {s : Spot}
    (hsign : s.afterSign = false) (column : ColumnToken) :
    Written s (ofColumn column ++ ofText text).glyphs (afterColumn s column) := by
  rw [glyphs_append, glyphs_ofText]
  have sign : Written s (ofColumn column).glyphs
      { s with column := some column.column, afterSign := true } := .column hsign (.nil _)
  exact sign.append (written_of_joins h _)

theorem isCondition_ofColumn (column : ColumnToken) (a : UInt32) :
    (ofColumn column).IsCondition a a := by
  rintro s rfl hsign
  refine ⟨_, ?_, .column hsign (.nil _)⟩
  rfl

theorem isCondition_column (text : String) (h : joins text = true) (column : ColumnToken)
    (a : UInt32) : (ofColumn column ++ ofText text).IsCondition a a :=
  fun s hs hsign => ⟨afterColumn s column, hs, written_column h hsign column⟩

/-- A column, a text, and a parameter that is meant for the column. -/
theorem isCondition_test (text : String) (h : joins text = true) (column : ColumnToken)
    (v : Value) (a : UInt32) : (ofColumn column ++ ofText text ++
      ofParam ⟨numberedName column.column a, v⟩).IsCondition a (a + 1) := by
  rintro s rfl hsign
  rw [glyphs_append]
  refine ⟨_, ?_, (written_column h hsign column).append (.param rfl rfl (.nil _))⟩
  rfl

/-- Parameters for one column, with commas between them. -/
theorem written_params {column : String} {params : List Param} {a : UInt32}
    (h : List.Forall₂ (fun n p => p.name = numberedName column n) (countsFrom a params.length)
      params) {s : Spot} (hs : s.count = a) (hsign : s.afterSign = false)
    (hcolumn : s.column = some column) :
    ∃ t, t.count = a + UInt32.ofNat params.length ∧
      Written s (joined ", " (params.map ofParam)).glyphs t := by
  induction params generalizing a s with
  | nil => exact ⟨s, by simpa using hs, .nil s⟩
  | cons p params ih =>
      subst hs
      rw [List.length_cons, countsFrom, List.forall₂_cons] at h
      obtain ⟨name, v⟩ := p
      obtain ⟨rfl, h⟩ := h
      have first : Written s (ofParam ⟨numberedName column s.count, v⟩).glyphs
          { s with count := s.count + 1, afterSign := true } := .param hsign hcolumn (.nil _)
      cases params with
      | nil => exact ⟨_, rfl, first⟩
      | cons q params =>
          obtain ⟨t, ht, rest⟩ := ih h
            (s := { s with count := s.count + 1, afterSign := false }) rfl rfl hcolumn
          refine ⟨t, ht.trans (count_succ s.count (q :: params).length).symm, ?_⟩
          rw [List.map_cons, List.map_cons, joined, ← List.map_cons, glyphs_append, glyphs_append,
            glyphs_ofText]
          · exact (first.append (written_of_joins (by decide) _)).append rest
          · simp

/-- A column, a text, and a list of parameters that are meant for the column. -/
theorem isCondition_list (text : String) (h : joins text = true) (column : ColumnToken)
    {params : List Param} {a : UInt32}
    (hparams : List.Forall₂ (fun n p => p.name = numberedName column.column n)
      (countsFrom a params.length) params) :
    (ofColumn column ++ ofText text ++ joined ", " (params.map ofParam) ++
      ofText ")").IsCondition a (a + UInt32.ofNat params.length) := by
  intro s hs hsign
  obtain ⟨t, ht, list⟩ := written_params hparams (s := afterColumn s column) hs rfl rfl
  obtain ⟨u, hu, closing⟩ := isContinuation_ofText ")" (by decide) _ t ht
  rw [glyphs_append, glyphs_append]
  exact ⟨u, hu, ((written_column h hsign column).append list).append closing⟩

end Fragment

end GraphStore
