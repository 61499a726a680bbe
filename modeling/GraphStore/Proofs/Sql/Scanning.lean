import GraphStore.Proofs.Sql.Quoting
import GraphStore.Sql.Piece

/-!
# Scanning the text of a query

The text of a query is scanned from left to right by the rules of its dialect. A quoted identifier
is one sign, whatever stands in it, and so is a placeholder; every other character is a sign of its
own. Pieces that are printed are scanned as the signs they consist of (`scan_print`), as long as
names and placeholders end where a separator begins, and no other character could be taken for the
beginning of one (`Legible`).
-/

set_option autoImplicit false

namespace GraphStore

/-- What a query consists of once names and placeholders are single signs. Placeholders are marked
by what is known of them: the parameter, the text of the placeholder, or an index. -/
inductive Sign (μ : Type) where
  | char (c : Char)
  | name (s : String)
  | mark (m : μ)
deriving DecidableEq, Repr

namespace Sign

variable {μ : Type}

def ofText (s : String) : List (Sign μ) := s.toList.map .char

/-- What is known of the placeholders, in order. -/
def marks (ss : List (Sign μ)) : List μ := ss.filterMap fun | .mark m => some m | _ => none

@[simp] theorem marks_mark (m : μ) (ss : List (Sign μ)) :
    marks (.mark m :: ss) = m :: marks ss := rfl

@[simp] theorem marks_append (ss ts : List (Sign μ)) : marks (ss ++ ts) = marks ss ++ marks ts :=
  List.filterMap_append

@[simp] theorem marks_ofText (s : String) : marks (ofText (μ := μ) s) = [] := by
  simp [marks, ofText]

end Sign

/-! ## Characters -/

/-- A character of a plain name: a letter, a digit, an underscore, or any that is not ASCII. -/
def isWordChar (c : Char) : Bool := c.isAlphanum || c == '_' || '\x80' ≤ c

/-- A character at which a name or a placeholder has ended. -/
def isTerminator (c : Char) : Bool :=
  c == ' ' || c == '\n' || c == '.' || c == ',' || c == ')' || c == ';'

/-- A character that begins neither a name nor a placeholder in any dialect. -/
def isPlain (c : Char) : Bool := !(['"', '\x60', '[', '$', ':', '?', '@'].contains c)

namespace Dialect

/-- The first character of a placeholder. -/
def markSign : Dialect → Char
  | postgres => '$'
  | sqlite => ':'
  | mySql => '?'
  | sqlServer => '@'

/-- Whether a placeholder goes on with the character: with digits where it is numbered, and with
the characters of plain names where it is named. -/
def markGoesOn : Dialect → Char → Bool
  | postgres, c => c.isDigit
  | sqlite, c => isWordChar c || c == '$'
  | mySql, _ => false
  | sqlServer, c => isWordChar c || c == '@' || c == '$' || c == '#'

/-- Whether placeholders are the names of parameters. -/
def marksByName : Dialect → Bool
  | sqlite => true
  | sqlServer => true
  | _ => false

end Dialect

/-! ## The scanner -/

/-- What is being scanned, with the characters of it that have been read. -/
inductive Scanning where
  | outside
  | name (read : List Char)
  /-- A quote in a name has been read: the name has ended unless another quote follows. -/
  | closing (read : List Char)
  | mark (read : List Char)
deriving DecidableEq, Repr

/-- The sign that has ended. -/
def Scanning.stop : Scanning → List (Sign (List Char))
  | outside => []
  | name read => [.name (String.ofList read)]
  | closing read => [.name (String.ofList read)]
  | mark read => [.mark read]

namespace Dialect

/-- A character where no sign has begun. -/
def scanOutside (d : Dialect) (c : Char) : List (Sign (List Char)) × Scanning :=
  if c = d.nameSigns.1 then ([], .name [])
  else if c = d.markSign then ([], .mark [c])
  else ([.char c], .outside)

/-- A character before which `s` has ended. -/
def scanAfter (d : Dialect) (s : Scanning) (c : Char) : List (Sign (List Char)) × Scanning :=
  (s.stop ++ (d.scanOutside c).1, (d.scanOutside c).2)

/-- The signs that end with a character, and what is scanned after it. -/
def scanChar (d : Dialect) : Scanning → Char → List (Sign (List Char)) × Scanning
  | .outside, c => d.scanOutside c
  | .name read, c =>
      if c = d.nameSigns.2 then ([], .closing read) else ([], .name (read ++ [c]))
  | .closing read, c =>
      if c = d.nameSigns.2 then ([], .name (read ++ [c])) else d.scanAfter (.closing read) c
  | .mark read, c =>
      if d.markGoesOn c then ([], .mark (read ++ [c])) else d.scanAfter (.mark read) c

def scanFrom (d : Dialect) : Scanning → List Char → List (Sign (List Char))
  | s, [] => s.stop
  | s, c :: cs => (d.scanChar s c).1 ++ d.scanFrom (d.scanChar s c).2 cs

/-- The signs of a text, placeholders as they are written. -/
def scan (d : Dialect) (text : String) : List (Sign (List Char)) := d.scanFrom .outside text.toList

end Dialect

/-! ## What is printed -/

def Piece.toSigns : Piece → List (Sign Param)
  | text s => Sign.ofText s
  | name s => [.name s]
  | param p => [.mark p]

/-- The signs that pieces consist of. -/
def Piece.signs (ps : List Piece) : List (Sign Param) := ps.flatMap Piece.toSigns

namespace Piece

@[simp] theorem signs_nil : signs [] = [] := rfl

@[simp] theorem signs_cons (p : Piece) (ps : List Piece) :
    signs (p :: ps) = p.toSigns ++ signs ps := rfl

@[simp] theorem signs_append (ps qs : List Piece) : signs (ps ++ qs) = signs ps ++ signs qs :=
  List.flatMap_append

theorem marks_signs (ps : List Piece) : Sign.marks (signs ps) = params ps := by
  induction ps with
  | nil => rfl
  | cons p ps ih =>
      rw [signs_cons, Sign.marks_append, ih]
      cases p with
      | text s => rw [toSigns, Sign.marks_ofText]; rfl
      | name s => rfl
      | param p => rfl

end Piece

namespace Dialect

/-- The text of the signs when `count` parameters stand before them. -/
def writeFrom (d : Dialect) : Nat → List (Sign Param) → List Char
  | _, [] => []
  | count, .char c :: ss => c :: d.writeFrom count ss
  | count, .name s :: ss => d.quote s.toList ++ d.writeFrom count ss
  | count, .mark p :: ss => (d.placeholder count p).toList ++ d.writeFrom (d.countParam count) ss

/-- The signs with the placeholders that are written for the parameters. -/
def marked (d : Dialect) : Nat → List (Sign Param) → List (Sign (List Char))
  | _, [] => []
  | count, .char c :: ss => .char c :: d.marked count ss
  | count, .name s :: ss => .name s :: d.marked count ss
  | count, .mark p :: ss =>
      .mark (d.placeholder count p).toList :: d.marked (d.countParam count) ss

theorem writeFrom_chars_append (d : Dialect) (count : Nat) (cs : List Char)
    (ss : List (Sign Param)) :
    d.writeFrom count (cs.map .char ++ ss) = cs ++ d.writeFrom count ss := by
  induction cs with
  | nil => rfl
  | cons c cs ih => rw [List.map_cons, List.cons_append, writeFrom, ih, List.cons_append]

theorem toList_printFrom (d : Dialect) (count : Nat) (ps : List Piece) :
    (d.printFrom count ps).toList = d.writeFrom count (Piece.signs ps) := by
  induction ps generalizing count with
  | nil => simp [printFrom, writeFrom]
  | cons p ps ih =>
      cases p with
      | text s =>
          rw [printFrom, String.toList_append, ih, Piece.signs_cons, Piece.toSigns, Sign.ofText,
            writeFrom_chars_append]
      | name s =>
          rw [printFrom, String.toList_append, ih, toList_identifier]
          rfl
      | param p =>
          rw [printFrom, String.toList_append, ih]
          rfl

end Dialect

/-! ## Legible signs -/

/-- The signs begin with a terminator, if there are any. -/
def Sign.Opens {μ : Type} (ss : List (Sign μ)) : Prop :=
  ∀ s ∈ ss.head?, ∃ c, s = .char c ∧ isTerminator c = true

/-- Names and placeholders are followed by terminators, and other characters are plain. -/
inductive Sign.Legible {μ : Type} : List (Sign μ) → Prop where
  | nil : Legible []
  | char {c : Char} {ss : List (Sign μ)} (plain : isPlain c = true) (rest : Legible ss) :
      Legible (.char c :: ss)
  | name {s : String} {ss : List (Sign μ)} (apart : Opens ss) (rest : Legible ss) :
      Legible (.name s :: ss)
  | mark {m : μ} {ss : List (Sign μ)} (apart : Opens ss) (rest : Legible ss) :
      Legible (.mark m :: ss)

namespace Sign

variable {μ : Type} {ss ts : List (Sign μ)}

theorem opens_nil : Opens ([] : List (Sign μ)) := by
  intro s hs
  cases hs

theorem opens_char {c : Char} (h : isTerminator c = true) (ss : List (Sign μ)) :
    Opens (.char c :: ss) := by
  rintro s ⟨⟩
  exact ⟨c, rfl, h⟩

theorem Opens.append (hs : Opens ss) (ht : Opens ts) : Opens (ss ++ ts) := by
  cases ss with
  | nil => exact ht
  | cons s ss => exact hs

theorem Legible.append (hs : Legible ss) (ht : Legible ts) (h : Opens ts) : Legible (ss ++ ts) := by
  induction hs with
  | nil => exact ht
  | char plain rest ih => exact .char plain ih
  | name apart rest ih => exact .name (apart.append h) ih
  | mark apart rest ih => exact .mark (apart.append h) ih

/-- A plain text may stand before anything. -/
theorem Legible.chars_append {cs : List Char} (hcs : cs.all isPlain = true) (hs : Legible ss) :
    Legible (cs.map .char ++ ss) := by
  induction cs with
  | nil => exact hs
  | cons c cs ih =>
      rw [List.all_cons, Bool.and_eq_true] at hcs
      exact .char hcs.1 (ih hcs.2)

end Sign

/-! ## Scanning what is printed -/

theorem isTerminator_cases {c : Char} (h : isTerminator c = true) :
    c = ' ' ∨ c = '\n' ∨ c = '.' ∨ c = ',' ∨ c = ')' ∨ c = ';' := by
  simpa [isTerminator, or_assoc] using h

namespace Dialect

variable {d : Dialect}

theorem ne_closing_of_isTerminator {c : Char} (h : isTerminator c = true) : c ≠ d.nameSigns.2 := by
  rcases isTerminator_cases h with rfl | rfl | rfl | rfl | rfl | rfl <;> cases d <;> decide

theorem not_markGoesOn_of_isTerminator {c : Char} (h : isTerminator c = true) :
    d.markGoesOn c = false := by
  rcases isTerminator_cases h with rfl | rfl | rfl | rfl | rfl | rfl <;> cases d <;> decide

theorem scanOutside_of_isPlain {c : Char} (h : isPlain c = true) :
    d.scanOutside c = ([.char c], .outside) := by
  have apart : ∀ x ∈ ['"', '\x60', '[', '$', ':', '?', '@'], c ≠ x := by
    intro x hx heq
    rw [isPlain, heq, List.contains_iff_mem.mpr hx] at h
    cases h
  have quote : c ≠ d.nameSigns.1 := apart _ (by cases d <;> decide)
  have sign : c ≠ d.markSign := apart _ (by cases d <;> decide)
  rw [scanOutside, if_neg quote, if_neg sign]

theorem nameSigns_ne_markSign : d.nameSigns.1 ≠ d.markSign := by
  cases d <;> decide

/-- What has been read ends before the first character of `cs`, if there is one. -/
theorem scanFrom_stop {s : Scanning} {cs : List Char}
    (h : ∀ c ∈ cs.head?, d.scanChar s c = d.scanAfter s c) :
    d.scanFrom s cs = s.stop ++ d.scanFrom .outside cs := by
  cases cs with
  | nil => simp [scanFrom, Scanning.stop]
  | cons c cs =>
      rw [scanFrom, h c rfl, scanAfter, scanFrom, List.append_assoc]
      rfl

/-- A quoted name is read to its end. -/
theorem scanFrom_name (read s rest : List Char) :
    d.scanFrom (.name read) (escaped d.nameSigns.2 [d.nameSigns.2, d.nameSigns.2] s ++
      d.nameSigns.2 :: rest) = d.scanFrom (.closing (read ++ s)) rest := by
  induction s generalizing read with
  | nil => simp [escaped, scanFrom, scanChar]
  | cons c s ih =>
      have unescape : read ++ c :: s = (read ++ [c]) ++ s := by simp
      rw [unescape, ← ih]
      by_cases hc : c = d.nameSigns.2
      · simp [escaped, scanFrom, scanChar, hc]
      · simp [escaped, scanFrom, scanChar, hc]

/-- A placeholder is read to its end. -/
theorem scanFrom_mark (read : List Char) {cs : List Char} (h : ∀ c ∈ cs, d.markGoesOn c = true)
    (rest : List Char) :
    d.scanFrom (.mark read) (cs ++ rest) = d.scanFrom (.mark (read ++ cs)) rest := by
  induction cs generalizing read with
  | nil => simp
  | cons c cs ih =>
      rw [List.cons_append, scanFrom, scanChar, if_pos (h c List.mem_cons_self), List.nil_append,
        ih _ fun c' hc' => h c' (List.mem_cons_of_mem c hc'), List.append_assoc]
      rfl

/-- A number is written in digits. -/
theorem isDigit_of_mem_toString {n : Nat} {c : Char} (h : c ∈ (toString n).toList) :
    c.isDigit = true := by
  rw [Nat.toString_eq_ofList_toDigits, String.toList_ofList] at h
  exact Nat.isDigit_of_mem_toDigits (by decide) (by decide) h

/-- Placeholders that are names go on with the characters of plain names. -/
theorem markGoesOn_of_isWordChar (hd : d.marksByName = true) {c : Char}
    (h : isWordChar c = true) : d.markGoesOn c = true := by
  cases d with
  | postgres => cases hd
  | sqlite => rw [markGoesOn, h, Bool.true_or]
  | mySql => cases hd
  | sqlServer => simp [markGoesOn, h]

/-- Where placeholders are names, the name is written as it is. -/
theorem toList_placeholder (hd : d.marksByName = true) (count : Nat) (p : Param) :
    (d.placeholder count p).toList = d.markSign :: p.name.toList := by
  cases d with
  | postgres => cases hd
  | sqlite =>
      rw [placeholder, String.toList_append]
      rfl
  | mySql => cases hd
  | sqlServer =>
      rw [placeholder, String.toList_append]
      rfl

/-- A placeholder consists of its first character and others with which it goes on. -/
theorem exists_placeholder (count : Nat) {p : Param}
    (h : d.marksByName = true → ∀ c ∈ p.name.toList, d.markGoesOn c = true) :
    ∃ cs, (d.placeholder count p).toList = d.markSign :: cs ∧ ∀ c ∈ cs, d.markGoesOn c = true := by
  cases d with
  | postgres =>
      refine ⟨(toString (count + 1)).toList, ?_, fun c hc => isDigit_of_mem_toString hc⟩
      rw [placeholder, String.toList_append]
      rfl
  | sqlite => exact ⟨p.name.toList, toList_placeholder rfl count p, h rfl⟩
  | mySql =>
      refine ⟨[], ?_, by simp⟩
      rw [placeholder]
      decide
  | sqlServer => exact ⟨p.name.toList, toList_placeholder rfl count p, h rfl⟩

/-- Where signs begin with a terminator, their text does. -/
theorem isTerminator_of_opens {ss : List (Sign Param)} (h : Sign.Opens ss) (count : Nat) {c : Char}
    (hc : c ∈ (d.writeFrom count ss).head?) : isTerminator c = true := by
  cases ss with
  | nil => cases hc
  | cons s ss =>
      obtain ⟨c', rfl, hc'⟩ := h s rfl
      cases hc
      exact hc'

/-- Plain characters are read one by one. -/
theorem scanFrom_chars {cs : List Char} (h : cs.all isPlain = true) (rest : List Char) :
    d.scanFrom .outside (cs ++ rest) = cs.map .char ++ d.scanFrom .outside rest := by
  induction cs with
  | nil => rfl
  | cons c cs ih =>
      rw [List.all_cons, Bool.and_eq_true] at h
      rw [List.cons_append, scanFrom, scanChar, scanOutside_of_isPlain h.1, ih h.2]
      rfl

/-- A quoted name is read as that name, if no quote follows it. -/
theorem scanFrom_quote (s : List Char) {rest : List Char}
    (h : ∀ c ∈ rest.head?, c ≠ d.nameSigns.2) :
    d.scanFrom .outside (d.quote s ++ rest) =
      .name (String.ofList s) :: d.scanFrom .outside rest := by
  have ended : ∀ c ∈ rest.head?, d.scanChar (.closing s) c = d.scanAfter (.closing s) c :=
    fun c hc => by rw [scanChar, if_neg (h c hc)]
  have opened : d.scanOutside d.nameSigns.1 = ([], .name []) := by rw [scanOutside, if_pos rfl]
  rw [quote, delimited, List.cons_append, List.append_assoc, List.singleton_append, scanFrom,
    scanChar, opened, scanFrom_name, List.nil_append, List.nil_append, scanFrom_stop ended]
  rfl

theorem scanFrom_writeFrom {ss : List (Sign Param)} (h : Sign.Legible ss)
    (hnames : d.marksByName = true → ∀ p ∈ Sign.marks ss, ∀ c ∈ p.name.toList,
      d.markGoesOn c = true) (count : Nat) :
    d.scanFrom .outside (d.writeFrom count ss) = d.marked count ss := by
  induction h generalizing count with
  | nil => rfl
  | char plain rest ih =>
      rw [writeFrom, scanFrom, scanChar, scanOutside_of_isPlain plain, marked, ih hnames]
      rfl
  | @name s ss apart rest ih =>
      -- the quote that ends the name is not followed by another one
      have ended : ∀ c ∈ (d.writeFrom count ss).head?, c ≠ d.nameSigns.2 := fun c hc =>
        ne_closing_of_isTerminator (isTerminator_of_opens apart count hc)
      rw [writeFrom, scanFrom_quote _ ended, String.ofList_toList, ih hnames, marked]
  | @mark p ss apart rest ih =>
      have later : d.marksByName = true → ∀ q ∈ Sign.marks ss, ∀ c ∈ q.name.toList,
          d.markGoesOn c = true := fun hd q hq => hnames hd q (by simp [hq])
      obtain ⟨cs, hcs, goesOn⟩ :=
        exists_placeholder (d := d) (p := p) count fun hd => hnames hd p (by simp)
      have ended : ∀ c ∈ (d.writeFrom (d.countParam count) ss).head?,
          d.scanChar (.mark (d.markSign :: cs)) c = d.scanAfter (.mark (d.markSign :: cs)) c := by
        intro c hc
        rw [scanChar, not_markGoesOn_of_isTerminator (isTerminator_of_opens apart _ hc)]
        rfl
      have opened : d.scanOutside d.markSign = ([], .mark [d.markSign]) := by
        rw [scanOutside, if_neg nameSigns_ne_markSign.symm, if_pos rfl]
      rw [writeFrom, hcs, List.cons_append, scanFrom, scanChar, opened, List.nil_append,
        scanFrom_mark _ goesOn, List.singleton_append, scanFrom_stop ended, Scanning.stop, ih later,
        marked, hcs]
      rfl

/-- **Pieces that are printed are scanned as the signs they consist of**, with the placeholders
that the dialect writes for their parameters. -/
theorem scan_print (d : Dialect) {ps : List Piece} (h : Sign.Legible (Piece.signs ps))
    (hnames : d.marksByName = true → ∀ p ∈ Piece.params ps, ∀ c ∈ p.name.toList,
      d.markGoesOn c = true) :
    d.scan (d.print ps).sql = d.marked 0 (Piece.signs ps) := by
  rw [scan, print, toList_printFrom]
  exact scanFrom_writeFrom h (by rwa [Piece.marks_signs]) 0

end Dialect

end GraphStore
