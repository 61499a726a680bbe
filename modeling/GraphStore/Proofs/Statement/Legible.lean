import GraphStore.Proofs.Statement.Numbering

/-!
# Statements can be read back

The text of a statement that is written well is scanned as the signs of its pieces, in every dialect
(`scan_render`). Names and parameters are always followed by a text that begins with a terminator,
and what is written around them contains no character that could begin a name or a placeholder.
-/

set_option autoImplicit false

namespace GraphStore

open Sign

/-- What may stand behind a name or a placeholder. -/
def Sign.Trails {μ : Type} (ss : List (Sign μ)) : Prop := Legible ss ∧ Opens ss

namespace Sign

variable {μ : Type} {ss ts : List (Sign μ)}

theorem trails_nil : Trails ([] : List (Sign μ)) := ⟨.nil, opens_nil⟩

theorem Legible.before (hs : Legible ss) (ht : Trails ts) : Legible (ss ++ ts) :=
  hs.append ht.1 ht.2

theorem Trails.before (hs : Trails ss) (ht : Trails ts) : Trails (ss ++ ts) :=
  ⟨hs.1.before ht, hs.2.append ht.2⟩

theorem Legible.text (s : String) (hs : s.toList.all isPlain = true) (h : Legible ss) :
    Legible (ofText s ++ ss) :=
  h.chars_append hs

/-- A text that begins with a terminator may stand behind a name, with anything legible after
it. -/
theorem Legible.behind (s : String) (hplain : s.toList.all isPlain = true)
    (hopen : s.toList.head?.any isTerminator = true) (h : Legible ss) :
    Trails (ofText s ++ ss) := by
  refine ⟨h.text s hplain, ?_⟩
  unfold ofText
  cases hcs : s.toList with
  | nil => simp [hcs] at hopen
  | cons c cs =>
      rw [hcs] at hopen
      exact opens_char (by simpa using hopen) _

/-- A name or a placeholder. -/
theorem legible_name (s : String) : Legible [(.name s : Sign μ)] := .name opens_nil .nil

theorem legible_mark (m : μ) : Legible [.mark m] := .mark opens_nil .nil

end Sign

/-! ## Parts of statements -/

theorem TableRef.legible (t : TableRef) (context : Context) (label : String) :
    Legible (Piece.signs (t.pieces context label)) := by
  have declared : Trails (Piece.signs
      (if context.clause.declaresAlias && !label.isEmpty && label != t.name then
        [.text " AS ", .name label] else [])) := by
    split
    · exact (legible_name label).behind " AS " (by decide) (by decide)
    · exact trails_nil
  have named := (legible_name t.name).before declared
  unfold pieces
  rw [Piece.signs_append]
  split
  · exact named
  · exact (legible_name t.schema).before (named.behind "." (by decide) (by decide))

theorem ColumnToken.legible (c : ColumnToken) (context : Context) :
    Legible (Piece.signs (c.pieces context)) := by
  unfold pieces
  split
  · exact (legible_name c.table).before
      ((legible_name c.column).behind "." (by decide) (by decide))
  · exact legible_name c.column

/-- Items that are laid out are legible if each of them is. -/
theorem legible_separatedBy {α : Type} {write : α → List Piece} (separator : String)
    (hplain : separator.toList.all isPlain = true)
    (hopen : separator.toList.head?.any isTerminator = true) {items : List α}
    (h : ∀ a ∈ items, Legible (Piece.signs (write a))) :
    Legible (Piece.signs (Text.separatedBy write [.text separator] items)) := by
  have laid : ∀ owed,
      Legible (Piece.signs (Text.separatedFrom write [.text separator] owed items)) ∧
      (owed = true →
        Opens (Piece.signs (Text.separatedFrom write [.text separator] owed items))) := by
    induction items with
    | nil => exact fun owed => ⟨.nil, fun _ => opens_nil⟩
    | cons a items ih =>
        intro owed
        have rest := ih (fun a' ha' => h a' (List.mem_cons_of_mem a ha')) (!(write a).isEmpty)
        have item : Legible (Piece.signs (write a) ++ Piece.signs
            (Text.separatedFrom write [.text separator] (!(write a).isEmpty) items)) := by
          by_cases hwrite : write a = []
          · simpa [hwrite] using rest.1
          · exact (h a List.mem_cons_self).before ⟨rest.1, rest.2 (by simpa using hwrite)⟩
        rw [Text.separatedFrom, Piece.signs_append, Piece.signs_append]
        cases owed with
        | false => exact ⟨item, fun howed => absurd howed Bool.false_ne_true⟩
        | true =>
            have separated := item.behind separator hplain hopen
            rw [if_pos rfl, Piece.signs_cons, Piece.signs_nil, List.append_nil]
            exact ⟨separated.1, fun _ => separated.2⟩
  exact (laid false).1

theorem trails_wherePieces {filter : Fragment} {a b : UInt32} (h : filter.IsCondition a b)
    (context : Context) : Trails (Piece.signs (wherePieces filter context)) := by
  unfold wherePieces
  split
  · exact trails_nil
  · exact (h.legible context).behind "\nWHERE " (by decide) (by decide)

theorem trails_joins {js : List Join} (h : ∀ j ∈ js, ∃ a b, j.on.IsCondition a b)
    (context : Context) : Trails (Piece.signs (js.flatMap (·.pieces context))) := by
  induction js with
  | nil => exact trails_nil
  | cons j js ih =>
      obtain ⟨a, b, on⟩ := h j List.mem_cons_self
      have link := (on.legible context).behind " ON " (by decide) (by decide)
      have joined := (j.table.legible context j.label).before link
      have kind : Trails (Piece.signs (j.pieces context)) := by
        rw [Join.pieces, Piece.signs_cons, Piece.signs_append, Piece.signs_cons]
        cases hkind : j.kind <;> exact joined.behind _ (by decide) (by decide)
      rw [List.flatMap_cons, Piece.signs_append]
      exact kind.before (ih fun i hi => h i (List.mem_cons_of_mem j hi))

theorem trails_orderPieces (orderBy : List (ColumnToken × Order)) (context : Context) :
    Trails (Piece.signs (orderPieces orderBy context)) := by
  unfold orderPieces
  split
  · exact trails_nil
  · refine (legible_separatedBy ", " (by decide) (by decide) fun p _ => ?_).behind "\nORDER BY "
      (by decide) (by decide)
    rw [Piece.signs_append]
    refine (p.1.legible context).before ?_
    cases p.2 <;> exact Legible.nil.behind _ (by decide) (by decide)

theorem SelectColumn.legible (c : SelectColumn) : Legible (Piece.signs c.pieces) := by
  cases c with
  | split label => exact (legible_name label).text "NULL AS " (by decide)
  | column table name label =>
      exact (legible_name table).before (((legible_name name).before
        ((legible_name label).behind " AS " (by decide) (by decide))).behind "." (by decide)
        (by decide))

/-- Numbers are plain. -/
theorem isPlain_of_isDigit {c : Char} (h : c.isDigit = true) : isPlain c = true := by
  rw [isPlain, Bool.not_eq_true', ← Bool.not_eq_true, List.contains_iff_mem]
  intro hmem
  simp only [List.mem_cons, List.not_mem_nil, or_false] at hmem
  rcases hmem with rfl | rfl | rfl | rfl | rfl | rfl | rfl <;> exact absurd h (by decide)

theorem all_isPlain_toString (n : Nat) : (toString n).toList.all isPlain = true :=
  List.all_eq_true.mpr fun _ hc => isPlain_of_isDigit (Dialect.isDigit_of_mem_toString hc)

namespace Dialect

theorem all_isPlain_selectHead (d : Dialect) (limit : Option Nat) :
    (d.selectHead limit).toList.all isPlain = true := by
  cases limit with
  | none => cases d <;> decide
  | some n =>
      cases d with
      | sqlServer =>
          have digits := all_isPlain_toString n
          simp only [selectHead, String.toList_append, List.all_append, digits, Bool.and_true]
          decide
      | _ => exact (by decide : "SELECT ".toList.all isPlain = true)

theorem trails_selectLimit (d : Dialect) (limit : Option Nat) :
    Trails (Piece.signs [.text (d.selectLimit limit), .text ";"]) := by
  have done : Trails (Piece.signs [.text ";"]) := Legible.nil.behind ";" (by decide) (by decide)
  have none : Trails (Piece.signs [.text "", .text ";"]) := done
  have some : ∀ n : Nat, Trails (Piece.signs [.text ("\nLIMIT " ++ toString n), .text ";"]) := by
    intro n
    refine done.1.behind _ ?_ ?_
    · have digits := all_isPlain_toString n
      simp only [String.toList_append, List.all_append, digits, Bool.and_true]
      decide
    · rw [String.toList_append]
      rfl
  cases limit with
  | none => cases d <;> exact none
  | some n =>
      cases d with
      | sqlServer => exact none
      | _ => exact some n

end Dialect

/-! ## Statements -/

theorem SelectStatement.legible {s : SelectStatement} (d : Dialect)
    (hjoins : ∀ j ∈ s.joins, ∃ a b, j.on.IsCondition a b)
    (hfilter : ∃ a b, s.filter.IsCondition a b) : Legible (Piece.signs (s.pieces d)) := by
  obtain ⟨a, b, filter⟩ := hfilter
  have columns : Legible (Piece.signs (Text.separatedBy SelectColumn.pieces [.text ", "]
      s.columns)) :=
    legible_separatedBy ", " (by decide) (by decide) fun c _ => c.legible
  rw [pieces]
  simp only [Piece.signs_cons (.text _), Piece.signs_append]
  refine (columns.before ?_).text _ (d.all_isPlain_selectHead s.limit)
  refine ((s.table.legible _ _).before ?_).behind "\nFROM " (by decide) (by decide)
  refine (trails_joins hjoins _).before ((trails_wherePieces filter _).before ?_)
  exact (trails_orderPieces s.orderBy _).before (d.trails_selectLimit s.limit)

theorem trails_returningPieces (d : Dialect) (key : Option GeneratedKey) :
    Trails (Piece.signs (returningPieces d key)) := by
  unfold returningPieces
  split
  next k => exact (legible_name k.column).behind " RETURNING " (by decide) (by decide)
  next => exact trails_nil

theorem trails_outputPieces (d : Dialect) (key : Option GeneratedKey) :
    Trails (Piece.signs (outputPieces d key)) := by
  unfold outputPieces
  split
  next k => exact (legible_name k.column).behind " OUTPUT INSERTED." (by decide) (by decide)
  next => exact trails_nil

/-- The end of a statement. -/
theorem trails_semicolon : Trails (Piece.signs [.text ";"]) :=
  Legible.nil.behind ";" (by decide) (by decide)

theorem InsertStatement.legible (d : Dialect) (s : InsertStatement) :
    Legible (Piece.signs (s.pieces d)) := by
  have finish := (trails_returningPieces d s.generatedKey).before trails_semicolon
  have columns : Legible (Piece.signs (Text.separatedBy
      (fun a : Assignment => [.name a.column]) [.text ", "] s.values)) :=
    legible_separatedBy ", " (by decide) (by decide) fun a _ => legible_name a.column
  have values : Legible (Piece.signs (Text.separatedBy
      (fun a : Assignment => [.param a.param]) [.text ", "] s.values)) :=
    legible_separatedBy ", " (by decide) (by decide) fun a _ => legible_mark a.param
  rw [pieces, Piece.signs_cons, Piece.signs_append]
  refine ((s.table.legible _ _).before ?_).text "INSERT INTO " (by decide)
  split
  · have defaults : Trails (Piece.signs [.text d.defaultValues]) := by
      cases d <;> exact Legible.nil.behind _ (by decide) (by decide)
    simp only [Piece.signs_append]
    exact ((trails_outputPieces d s.generatedKey).before defaults).before finish
  · simp only [Piece.signs_cons (.text _), Piece.signs_append, List.append_assoc]
    refine (columns.before ?_).behind " (" (by decide) (by decide)
    refine Legible.behind ")" (by decide) (by decide) ((trails_outputPieces d _).before ?_).1
    refine (values.before ?_).behind " VALUES (" (by decide) (by decide)
    exact finish.1.behind ")" (by decide) (by decide)

theorem UpdateStatement.legible {s : UpdateStatement}
    (hfilter : ∃ a b, s.filter.IsCondition a b) : Legible (Piece.signs s.pieces) := by
  obtain ⟨a, b, filter⟩ := hfilter
  have set : Legible (Piece.signs (Text.separatedBy Assignment.pieces [.text ", "] s.set)) :=
    legible_separatedBy ", " (by decide) (by decide) fun a _ =>
      (legible_name a.column).before ((legible_mark a.param).behind " = " (by decide) (by decide))
  rw [pieces, Piece.signs_cons, Piece.signs_append, Piece.signs_cons, Piece.signs_append,
    Piece.signs_append]
  refine ((s.table.legible _ _).before ?_).text "UPDATE " (by decide)
  refine (set.before ?_).behind " SET " (by decide) (by decide)
  exact (trails_wherePieces filter _).before trails_semicolon

theorem DeleteStatement.legible {s : DeleteStatement}
    (hfilter : ∃ a b, s.filter.IsCondition a b) : Legible (Piece.signs s.pieces) := by
  obtain ⟨a, b, filter⟩ := hfilter
  rw [pieces, Piece.signs_cons, Piece.signs_append, Piece.signs_append]
  refine ((s.table.legible _ _).before ?_).text "DELETE FROM " (by decide)
  exact (trails_wherePieces filter _).before trails_semicolon

theorem DropTableStatement.legible (s : DropTableStatement) : Legible (Piece.signs s.pieces) := by
  have table := (s.table.legible { clause := .dropTable, qualify := false } "").before
    trails_semicolon
  rw [pieces, Piece.signs_cons, Piece.signs_append, Piece.signs_append]
  split
  · exact (table.text "IF EXISTS " (by decide)).text "DROP TABLE " (by decide)
  · exact table.text "DROP TABLE " (by decide)

/-- A statement that is written well is legible in every dialect. -/
theorem Statement.WellWritten.legible {st : Statement} (h : st.WellWritten) (d : Dialect) :
    Legible (Piece.signs (st.pieces d)) := by
  cases st with
  | select s =>
      refine SelectStatement.legible d (fun j hj => h.conditions _ ?_) (h.conditions _ ?_)
      · exact List.mem_append_left _ (List.mem_map_of_mem hj)
      · exact List.mem_append_right _ (List.mem_singleton_self _)
  | insert s => exact s.legible d
  | update s => exact UpdateStatement.legible (h.conditions _ (List.mem_singleton_self _))
  | delete s => exact DeleteStatement.legible (h.conditions _ (List.mem_singleton_self _))
  | createTable s => exact absurd rfl (h.creates_nothing s)
  | dropTable s => exact s.legible

theorem mem_numberedName {column : String} {n : UInt32} {c : Char}
    (h : c ∈ (numberedName column n).toList) :
    c ∈ column.toList ∨ c = '_' ∨ c.isDigit = true := by
  rw [numberedName, String.toList_append, String.toList_append, List.mem_append,
    List.mem_append] at h
  rcases h with (hc | hc) | hc
  · exact .inl hc
  · exact .inr (.inl (by simpa using hc))
  · exact .inr (.inr (Dialect.isDigit_of_mem_toString hc))

/-- **A statement is scanned as the signs it was written with**, and with the placeholders of the
dialect. Where placeholders are names, they have to go on with the characters of the columns that
they are named after. -/
theorem Statement.WellWritten.scan_render {st : Statement} (h : st.WellWritten) (d : Dialect)
    (hnames : d.marksByName = true → ∀ b ∈ st.bindings, ∀ c ∈ b.column.toList,
      d.markGoesOn c = true) :
    d.scan (d.render st).sql = d.marked 0 (Piece.signs (st.pieces d)) := by
  refine d.scan_print (h.legible d) fun hd p hp c hc => ?_
  have params : Piece.params (st.pieces d) = st.bindings.map (·.param) := d.params_render st
  rw [params] at hp
  obtain ⟨b, hb, rfl⟩ := List.mem_map.mp hp
  obtain ⟨numbers, -, hnumbered⟩ := h.numbered
  obtain ⟨n, -, hn⟩ := exists_of_mem_forall₂ hnumbered hb
  -- the name is that of the column, an underscore and a number
  rw [hn] at hc
  rcases mem_numberedName hc with hc | rfl | digit
  · exact hnames hd b hb c hc
  · exact d.markGoesOn_of_isWordChar hd (by decide)
  · exact d.markGoesOn_of_isWordChar hd (by simp [isWordChar, Char.isAlphanum, digit])

end GraphStore
