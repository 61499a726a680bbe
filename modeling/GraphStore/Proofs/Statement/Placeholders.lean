import GraphStore.Proofs.Statement.Legible
import GraphStore.Proofs.Statement.Standings

/-!
# Positional placeholders

In the dialects whose placeholders are numbered or bare, the placeholders of a query are numbered
from left to right, one for every parameter, and each stands where the statement has its parameter.
The text of a statement is read part by part: what stands between conditions, assignments and
values has no keywords in it (`IsQuiet`), so only the keywords of the statement itself lead on.
-/

set_option autoImplicit false

namespace GraphStore

open Sign

/-! ## Quiet texts -/

/-- A character that is heeded in no part. -/
def isQuietChar (c : Char) : Bool := !(['J', 'H', 'T', 'V', '(', ')'].contains c)

theorem Part.heeds_eq_of_isQuietChar {c : Char} (h : isQuietChar c = true) (part : Part) :
    part.heeds c = false := by
  have apart : ∀ x ∈ ['J', 'H', 'T', 'V', '(', ')'], (c == x) = false := by
    intro x hx
    rw [beq_eq_false_iff_ne]
    rintro rfl
    rw [isQuietChar, List.contains_iff_mem.mpr hx] at h
    cases h
  have hJ := apart 'J' (by decide)
  have hH := apart 'H' (by decide)
  have hT := apart 'T' (by decide)
  have hV := apart 'V' (by decide)
  have hopening := apart '(' (by decide)
  have hclosing := apart ')' (by decide)
  cases part <;> simp only [heeds, hJ, hH, hT, hV, hopening, hclosing, Bool.or_self]

/-- A sign that neither is a placeholder nor leads to another part. -/
def Sign.isQuiet {μ : Type} : Sign μ → Bool
  | .char c => isQuietChar c
  | .name _ => true
  | .mark _ => false

/-- No placeholder stands in these signs, and no part is left. -/
def IsQuiet {μ : Type} (ss : List (Sign μ)) : Prop := ss.all Sign.isQuiet = true

section

variable {μ : Type} {ss ts : List (Sign μ)}

theorem isQuiet_ofText {s : String} (h : s.toList.all isQuietChar = true) :
    IsQuiet (ofText s : List (Sign μ)) := by
  rw [IsQuiet, ofText, List.all_map]
  exact h

theorem isQuiet_text {s : String} (h : s.toList.all isQuietChar = true) :
    IsQuiet (Piece.signs [.text s]) := by
  rw [Piece.signs_cons, Piece.signs_nil, List.append_nil]
  exact isQuiet_ofText h

theorem isQuiet_name (s : String) : IsQuiet [(.name s : Sign μ)] := rfl

theorem IsQuiet.append (hs : IsQuiet ss) (ht : IsQuiet ts) : IsQuiet (ss ++ ts) := by
  rw [IsQuiet, List.all_append, hs, ht]
  rfl

theorem IsQuiet.marks_eq_nil (h : IsQuiet ss) : marks ss = [] := by
  induction ss with
  | nil => rfl
  | cons s ss ih =>
      rw [IsQuiet, List.all_cons, Bool.and_eq_true] at h
      cases s with
      | char c => exact ih h.2
      | name s => exact ih h.2
      | mark m => cases h.1

theorem IsQuiet.isIn_after (h : IsQuiet ss) {r : Reading} {part : Part} (hr : r.IsIn part)
    (hsteady : part.isSteady = true) : (r.after ss).IsIn part := by
  refine Reading.isIn_after hr hsteady fun s hs => ?_
  have quiet := List.all_eq_true.mp h s hs
  cases s with
  | char c => exact part.heeds_eq_of_isQuietChar quiet
  | name s => trivial
  | mark m => trivial

/-- Quiet signs are passed over. -/
theorem IsQuiet.standings_append (h : IsQuiet ss) (r : Reading) (ts : List (Sign μ)) :
    r.standings (ss ++ ts) = (r.after ss).standings ts := by
  rw [Reading.standings_append, Reading.standings_of_marks_eq_nil h.marks_eq_nil, List.nil_append]

/-- A text is passed over, whatever is in it. -/
theorem Reading.standings_text (r : Reading) (text : String) (ss : List (Sign μ)) :
    r.standings (ofText text ++ ss) = (r.after (ofText text : List (Sign μ))).standings ss := by
  rw [standings_append, standings_of_marks_eq_nil (marks_ofText text), List.nil_append]

/-- A text that begins between words. -/
theorem Reading.after_text {r : Reading} {part : Part} (hr : r.IsIn part) {text : String}
    (c : Char) (cs : List Char) (htext : text.toList = c :: cs) (hword : isWordChar c = false)
    (hheeds : part.heeds c = false) :
    r.after (ofText text : List (Sign μ)) =
      Reading.after ⟨part, r.last, []⟩ (cs.map .char : List (Sign μ)) := by
  have first : r.step (.char c : Sign μ) = ⟨part, r.last, []⟩ := by
    rw [Reading.step, if_neg (by simp [hword]), Part.keyword_eq hr.2, hr.1,
      Part.punctuation_eq hheeds]
  rw [ofText, htext, List.map_cons, Reading.after, List.foldl_cons, first]
  rfl

end

/-! ## Names -/

theorem TableRef.isQuiet (t : TableRef) (context : Context) (label : String) :
    IsQuiet (Piece.signs (t.pieces context label)) := by
  unfold pieces
  split <;> split <;> simp [IsQuiet, Piece.toSigns, Sign.isQuiet, ofText] <;> decide

theorem isQuiet_separatedBy {α : Type} {write : α → List Piece} {separator : String}
    (hseparator : separator.toList.all isQuietChar = true) {items : List α}
    (h : ∀ a ∈ items, IsQuiet (Piece.signs (write a))) :
    IsQuiet (Piece.signs (Text.separatedBy write [.text separator] items)) := by
  unfold Text.separatedBy
  generalize false = owed
  induction items generalizing owed with
  | nil => rfl
  | cons a items ih =>
      have rest := ih (fun a' ha' => h a' (List.mem_cons_of_mem a ha')) (!(write a).isEmpty)
      have item := (h a List.mem_cons_self).append rest
      rw [Text.separatedFrom, Piece.signs_append, Piece.signs_append]
      cases owed with
      | false => exact item
      | true => exact (isQuiet_text hseparator).append item

theorem SelectColumn.isQuiet (c : SelectColumn) : IsQuiet (Piece.signs c.pieces) := by
  cases c with
  | split label => exact (isQuiet_ofText (by decide)).append (isQuiet_name label)
  | column table name label =>
      exact (isQuiet_name table).append ((isQuiet_ofText (by decide)).append
        ((isQuiet_name name).append ((isQuiet_ofText (by decide)).append (isQuiet_name label))))

/-! ## Conditions of a statement -/

/-- The binding as it is read back: where it stands, and for which column. -/
def Binding.standing (b : Binding) : Option (Site × String) := some (b.site, b.column)

section

variable {r : Reading} {part : Part}

theorem Fragment.IsCondition.standings {a b : UInt32} {f : Fragment} (h : f.IsCondition a b)
    (context : Context) {site : Site} (hpart : part.IsCondition site) (hr : r.IsIn part) :
    r.standings (Piece.signs (f.pieces context)) = (f.bindings site).map Binding.standing ∧
      (r.after (Piece.signs (f.pieces context))).IsIn part := by
  obtain ⟨t, -, written⟩ := h ⟨a, none, false⟩ rfl rfl
  rw [signs_pieces]
  exact written.standings context hpart hr nofun

/-- The filter is read from any part in which it may begin. -/
theorem standings_wherePieces {filter : Fragment} {a b : UInt32} (h : filter.IsCondition a b)
    (context : Context) (hr : r.IsIn part) (hline : part.heeds '\n' = false)
    (hwhere : part.keyword ['W', 'H', 'E', 'R', 'E'] = .filter) :
    r.standings (Piece.signs (wherePieces filter context)) =
      (filter.bindings .filter).map Binding.standing := by
  unfold wherePieces
  split
  next hempty =>
    rw [Fragment.bindings, Fragment.glyphs, List.isEmpty_iff.mp hempty]
    rfl
  next =>
    have entered : (r.after (ofText "\nWHERE " : List (Sign Param))).IsAt .filter := by
      rw [Reading.after_text hr '\n' ['W', 'H', 'E', 'R', 'E', ' '] (by decide) (by decide) hline]
      change Part.punctuation (part.keyword ['W', 'H', 'E', 'R', 'E']) ' ' = .filter ∧ _
      rw [hwhere]
      exact ⟨rfl, rfl⟩
    rw [Piece.signs_cons, Piece.toSigns, Reading.standings_text]
    exact (h.standings context Part.isCondition_filter entered.isIn).1

/-- The part in which a join with `n` others before it begins. -/
def Part.before : Nat → Part
  | 0 => .head
  | n + 1 => .on n

theorem JoinKind.after_text (kind : JoinKind) {n : Nat} (hr : r.IsIn (.before n)) :
    (r.after (ofText kind.text : List (Sign Param))).IsAt (.on n) := by
  have line : (Part.before n).heeds '\n' = false := by cases n <;> rfl
  cases kind with
  | inner =>
      rw [Reading.after_text hr '\n' ['I', 'N', 'N', 'E', 'R', ' ', 'J', 'O', 'I', 'N', ' ']
        (by decide) (by decide) line]
      cases n <;> exact ⟨rfl, rfl⟩
  | left =>
      rw [Reading.after_text hr '\n' ['L', 'E', 'F', 'T', ' ', 'J', 'O', 'I', 'N', ' ']
        (by decide) (by decide) line]
      cases n <;> exact ⟨rfl, rfl⟩

/-- The joins are read one after another, each in a part of its own. -/
theorem standings_joins {js : List Join} (h : ∀ j ∈ js, ∃ a b, j.on.IsCondition a b)
    (context : Context) {n : Nat} (hr : r.IsIn (.before n)) :
    r.standings (Piece.signs (js.flatMap (·.pieces context))) =
        (joinBindings n js).map Binding.standing ∧
      (r.after (Piece.signs (js.flatMap (·.pieces context)))).IsIn (.before (n + js.length)) := by
  induction js generalizing r n with
  | nil => exact ⟨rfl, hr⟩
  | cons j js ih =>
      obtain ⟨a, b, on⟩ := h j List.mem_cons_self
      have entered := (j.kind.after_text hr).isIn
      -- the table and its alias are passed over
      have quiet : IsQuiet (Piece.signs (j.table.pieces context j.label ++ [.text " ON "])) := by
        rw [Piece.signs_append]
        exact (j.table.isQuiet context j.label).append (isQuiet_text (by decide))
      have condition := on.standings context (Part.isCondition_on n)
        (quiet.isIn_after entered rfl)
      have rest := ih (fun i hi => h i (List.mem_cons_of_mem j hi)) (n := n + 1) condition.2
      have signs : Piece.signs (j.pieces context) = ofText j.kind.text ++
          (Piece.signs (j.table.pieces context j.label ++ [.text " ON "]) ++
            Piece.signs (j.on.pieces context)) := by
        simp [Join.pieces, Piece.toSigns]
      rw [List.flatMap_cons, Piece.signs_append, signs, List.append_assoc, List.append_assoc,
        Reading.standings_text, quiet.standings_append, Reading.standings_append, condition.1,
        rest.1, joinBindings, List.map_append, List.length_cons, Nat.add_comm js.length,
        ← Nat.add_assoc]
      simp only [Reading.after_append, true_and]
      exact rest.2

end

/-! ## Lists -/

/-- Items are read one after another: `invariant` says how the reading stands when some of them are
still to come, and `found` which parameters an item has. -/
theorem standings_separatedBy {α : Type} (write : α → List Piece) (separator : String)
    (invariant : List α → Reading → Prop) (found : α → List Binding)
    (hseparator : ∀ rest r, invariant rest r →
      invariant rest (r.after (ofText separator : List (Sign Param))))
    (hitem : ∀ a rest r, invariant (a :: rest) r →
      r.standings (Piece.signs (write a)) = (found a).map Binding.standing ∧
        invariant rest (r.after (Piece.signs (write a))))
    {items : List α} {r : Reading} (hr : invariant items r) :
    r.standings (Piece.signs (Text.separatedBy write [.text separator] items)) =
        (items.flatMap found).map Binding.standing ∧
      invariant [] (r.after (Piece.signs (Text.separatedBy write [.text separator] items))) := by
  unfold Text.separatedBy
  generalize false = owed
  induction items generalizing r owed with
  | nil => exact ⟨rfl, hr⟩
  | cons a items ih =>
      -- the separator that is owed for the item before leaves everything as it is
      have separated : ∃ r', invariant (a :: items) r' ∧
          (∀ ss, r.standings (Piece.signs (if owed then [.text separator] else []) ++ ss) =
            r'.standings ss) ∧
          ∀ ss, r.after (Piece.signs (if owed then [.text separator] else []) ++ ss) =
            r'.after ss := by
        cases owed with
        | false => exact ⟨r, hr, fun _ => rfl, fun _ => rfl⟩
        | true =>
            refine ⟨_, hseparator _ _ hr, fun ss => ?_, fun ss => ?_⟩
            · rw [if_pos rfl, Piece.signs_cons, Piece.signs_nil, List.append_nil, Piece.toSigns,
                Reading.standings_text]
            · rw [if_pos rfl, Piece.signs_cons, Piece.signs_nil, List.append_nil, Piece.toSigns,
                Reading.after_append]
      obtain ⟨r', hr', standings_eq, after_eq⟩ := separated
      obtain ⟨item, next⟩ := hitem a items r' hr'
      have rest := ih next (!(write a).isEmpty)
      rw [Text.separatedFrom, Piece.signs_append, Piece.signs_append, standings_eq, after_eq,
        Reading.standings_append, Reading.after_append, item, rest.1, List.flatMap_cons,
        List.map_append]
      exact ⟨rfl, rest.2⟩

/-- The placeholders of assignments. -/
theorem standings_set (set : List Assignment) {r : Reading} (hr : r.IsIn .set) :
    r.standings (Piece.signs (Text.separatedBy Assignment.pieces [.text ", "] set)) =
        (set.map (·.binding .set)).map Binding.standing ∧
      (r.after (Piece.signs (Text.separatedBy Assignment.pieces [.text ", "] set))).IsIn .set := by
  have listed : set.map (·.binding .set) = set.flatMap fun a => [a.binding .set] :=
    List.map_eq_flatMap
  rw [listed]
  refine standings_separatedBy Assignment.pieces ", " (fun _ r => r.IsIn .set) _
    (fun _ r hr => (isQuiet_ofText (by decide)).isIn_after hr rfl) (fun a _ r hr => ?_) hr
  have quiet : IsQuiet (Piece.signs [.name a.column, .text " = "]) := by
    rw [Piece.signs_cons]
    exact (isQuiet_name a.column).append (isQuiet_text (by decide))
  have named := quiet.isIn_after hr rfl
  have signs : Piece.signs a.pieces =
      Piece.signs [.name a.column, .text " = "] ++ [.mark a.param] := rfl
  have standing : (r.after (Piece.signs [.name a.column, .text " = "])).standings
      [.mark a.param] = [(a.binding .set).standing] := by
    rw [Reading.standings, Part.keyword_eq named.2, named.1]
    rfl
  rw [signs, quiet.standings_append, Reading.after_append, standing]
  exact ⟨rfl, Reading.isIn_step named rfl (s := .mark a.param) trivial⟩

/-- The columns of a new row are read in order. -/
theorem after_columns (values : List Assignment) {r : Reading} (hr : r.IsAt (.columns [])) :
    (r.after (Piece.signs (Text.separatedBy (fun a : Assignment => [.name a.column]) [.text ", "]
      values))).IsAt (.columns (values.map (·.column))) := by
  have comma : ", ".toList = [',', ' '] := by decide
  obtain ⟨-, read, hread, heq⟩ := standings_separatedBy
    (fun a : Assignment => [.name a.column]) ", "
    (fun rest r => ∃ read, r.IsAt (.columns read) ∧
      read ++ rest.map (·.column) = values.map (·.column)) (fun _ => [])
    (fun rest r ⟨read, ⟨hpart, hword⟩, heq⟩ => by
      obtain ⟨part, last, word⟩ := r
      cases hpart
      cases hword
      rw [ofText, comma]
      exact ⟨read, ⟨rfl, rfl⟩, heq⟩)
    (fun a rest r ⟨read, ⟨hpart, hword⟩, heq⟩ => by
      obtain ⟨part, last, word⟩ := r
      cases hpart
      cases hword
      exact ⟨rfl, read ++ [a.column], ⟨rfl, rfl⟩, by simpa using heq⟩)
    ⟨[], hr, rfl⟩
  rw [List.map_nil, List.append_nil] at heq
  exact heq ▸ hread

/-- The list of columns begins with a parenthesis. -/
theorem after_opening {r : Reading} (hr : r.IsIn .head) :
    (r.after (ofText " (" : List (Sign Param))).IsAt (.columns []) := by
  rw [Reading.after_text hr ' ' ['('] (by decide) (by decide) (by decide)]
  exact ⟨rfl, rfl⟩

/-- The values follow after the columns. -/
theorem after_closing {columns : List String} {r : Reading} (hr : r.IsAt (.columns columns)) :
    (r.after (ofText ")" ++ ofText " VALUES (" : List (Sign Param))).IsAt (.values columns) := by
  have closing : ")".toList = [')'] := by decide
  have between : " VALUES (".toList = [' ', 'V', 'A', 'L', 'U', 'E', 'S', ' ', '('] := by decide
  obtain ⟨part, last, word⟩ := r
  obtain ⟨hpart, hword⟩ := hr
  cases hpart
  cases hword
  rw [ofText, ofText, closing, between]
  exact ⟨rfl, rfl⟩

/-- The placeholders of a new row stand for its columns in order. -/
theorem standings_values (values : List Assignment) {r : Reading}
    (hr : r.IsAt (.values (values.map (·.column)))) :
    r.standings (Piece.signs (Text.separatedBy (fun a : Assignment => [.param a.param])
        [.text ", "] values)) =
      (values.map (·.binding .values)).map Binding.standing := by
  have comma : ", ".toList = [',', ' '] := by decide
  have listed : values.map (·.binding .values) =
      values.flatMap fun a => [a.binding .values] := List.map_eq_flatMap
  rw [listed]
  refine (standings_separatedBy (fun a : Assignment => [.param a.param]) ", "
    (fun rest r => r.IsAt (.values (rest.map (·.column)))) _
    (fun rest r hr => ?_) (fun a rest r hr => ?_) hr).1
  · obtain ⟨part, last, word⟩ := r
    obtain ⟨hpart, hword⟩ := hr
    cases hpart
    cases hword
    rw [ofText, comma]
    exact ⟨rfl, rfl⟩
  · obtain ⟨part, last, word⟩ := r
    obtain ⟨hpart, hword⟩ := hr
    cases hpart
    cases hword
    exact ⟨rfl, rfl, rfl⟩

/-! ## Statements -/

/-- The reading after the first words of a statement. -/
def headed (text : String) : Reading := Reading.after {} (ofText text : List (Sign Param))

theorem standings_headed (text : String) (ss : List (Sign Param)) :
    Reading.standings {} (ofText text ++ ss) = (headed text).standings ss :=
  Reading.standings_text {} text ss

theorem standings_select {s : SelectStatement} {d : Dialect} (hd : d.marksByName = false)
    (hjoins : ∀ j ∈ s.joins, ∃ a b, j.on.IsCondition a b)
    (hfilter : ∃ a b, s.filter.IsCondition a b) :
    Reading.standings {} (Piece.signs (s.pieces d)) =
      (Statement.select s).bindings.map Binding.standing := by
  obtain ⟨a, b, filter⟩ := hfilter
  let context : Context := { clause := .select }
  have head : d.selectHead s.limit = "SELECT " := by
    cases d with
    | sqlite => cases hd
    | sqlServer => cases hd
    | _ => cases s.limit <;> rfl
  have columns : IsQuiet (Piece.signs (Text.separatedBy SelectColumn.pieces [.text ", "]
      s.columns)) :=
    isQuiet_separatedBy (by decide) fun c _ => c.isQuiet
  have quiet := columns.append ((isQuiet_text (s := "\nFROM ") (by decide)).append
    (s.table.isQuiet (context.inClause .selectFrom) s.label))
  have started : (headed "SELECT ").IsAt .head := ⟨by decide, by decide⟩
  obtain ⟨joins, joined⟩ := standings_joins hjoins (context.inClause .join) (n := 0)
    (quiet.isIn_after started.isIn rfl)
  have filtered := standings_wherePieces filter (context.inClause .selectWhere) joined
    (by cases (0 + s.joins.length) <;> rfl) (by cases (0 + s.joins.length) <;> rfl)
  have rest : marks (Piece.signs (orderPieces s.orderBy (context.inClause .selectOrderBy) ++
      [.text (d.selectLimit s.limit), .text ";"])) = [] := by
    rw [Piece.marks_signs, Piece.params_append, params_orderPieces]
    rfl
  have signs : Piece.signs (s.pieces d) = ofText "SELECT " ++
      ((Piece.signs (Text.separatedBy SelectColumn.pieces [.text ", "] s.columns) ++
        (Piece.signs [.text "\nFROM "] ++
          Piece.signs (s.table.pieces (context.inClause .selectFrom) s.label))) ++
      (Piece.signs (s.joins.flatMap (·.pieces (context.inClause .join))) ++
      (Piece.signs (wherePieces s.filter (context.inClause .selectWhere)) ++
        Piece.signs (orderPieces s.orderBy (context.inClause .selectOrderBy) ++
          [.text (d.selectLimit s.limit), .text ";"])))) := by
    simp [SelectStatement.pieces, head, Piece.toSigns, context]
  rw [signs, standings_headed, quiet.standings_append, Reading.standings_append, joins,
    Reading.standings_append, filtered, Reading.standings_of_marks_eq_nil rest, List.append_nil,
    Statement.bindings, List.map_append]

theorem standings_insert {s : InsertStatement} {d : Dialect} (hd : d.marksByName = false) :
    Reading.standings {} (Piece.signs (s.pieces d)) =
      (Statement.insert s).bindings.map Binding.standing := by
  let context : Context := { clause := .insertInto, qualify := false }
  have output : outputPieces d s.generatedKey = [] := by
    cases d with
    | sqlServer => cases hd
    | _ => rfl
  have finish : marks (Piece.signs (returningPieces d s.generatedKey ++ [.text ";"])) = [] := by
    rw [Piece.marks_signs]
    unfold returningPieces
    split <;> rfl
  have table := s.table.isQuiet context ""
  by_cases hempty : s.values.isEmpty = true
  · have signs : Piece.signs (s.pieces d) = ofText "INSERT INTO " ++
        (Piece.signs (s.table.pieces context "") ++ (ofText d.defaultValues ++
          Piece.signs (returningPieces d s.generatedKey ++ [.text ";"]))) := by
      simp [InsertStatement.pieces, hempty, output, Piece.toSigns, context]
    rw [signs, standings_headed, table.standings_append, Reading.standings_text,
      Reading.standings_of_marks_eq_nil finish, Statement.bindings, List.isEmpty_iff.mp hempty]
    rfl
  · let columns := Piece.signs (Text.separatedBy (fun a : Assignment => [.name a.column])
      [.text ", "] s.values)
    let values := Piece.signs (Text.separatedBy (fun a : Assignment => [.param a.param])
      [.text ", "] s.values)
    have signs : Piece.signs (s.pieces d) = ofText "INSERT INTO " ++
        (Piece.signs (s.table.pieces context "") ++ (ofText " (" ++ (columns ++
          ((ofText ")" ++ ofText " VALUES (") ++ (values ++ (ofText ")" ++
            Piece.signs (returningPieces d s.generatedKey ++ [.text ";"]))))))) := by
      simp [InsertStatement.pieces, hempty, output, Piece.toSigns, context, columns, values]
    have started : (headed "INSERT INTO ").IsAt .head := ⟨by decide, by decide⟩
    have opened := after_opening (table.isIn_after started.isIn rfl)
    have valued := after_closing (after_columns s.values opened)
    have markless : marks columns = [] := by
      rw [Piece.marks_signs]
      exact params_separatedBy_eq_nil s.values rfl fun _ => rfl
    have between : marks (ofText ")" ++ ofText " VALUES (" : List (Sign Param)) = [] := by decide
    rw [signs, standings_headed, table.standings_append, Reading.standings_text,
      Reading.standings_append, Reading.standings_of_marks_eq_nil markless, List.nil_append,
      Reading.standings_append, Reading.standings_of_marks_eq_nil between, List.nil_append,
      Reading.standings_append, standings_values s.values valued, Reading.standings_text,
      Reading.standings_of_marks_eq_nil finish, List.append_nil, Statement.bindings]

theorem standings_update {s : UpdateStatement} (hfilter : ∃ a b, s.filter.IsCondition a b) :
    Reading.standings {} (Piece.signs s.pieces) =
      (Statement.update s).bindings.map Binding.standing := by
  obtain ⟨a, b, filter⟩ := hfilter
  let context : Context := { clause := .update, qualify := false }
  have table := s.table.isQuiet context ""
  have started : (headed "UPDATE ").IsAt .head := ⟨by decide, by decide⟩
  have entered : (((headed "UPDATE ").after (Piece.signs (s.table.pieces context ""))).after
      (ofText " SET " : List (Sign Param))).IsAt .set := by
    rw [Reading.after_text (table.isIn_after started.isIn rfl) ' ' ['S', 'E', 'T', ' ']
      (by decide) (by decide) (by decide)]
    exact ⟨rfl, rfl⟩
  obtain ⟨set, left⟩ := standings_set s.set entered.isIn
  have filtered := standings_wherePieces filter (context.inClause .updateWhere) left rfl rfl
  have signs : Piece.signs s.pieces = ofText "UPDATE " ++
      (Piece.signs (s.table.pieces context "") ++ (ofText " SET " ++
      (Piece.signs (Text.separatedBy Assignment.pieces [.text ", "] s.set) ++
      (Piece.signs (wherePieces s.filter (context.inClause .updateWhere)) ++ ofText ";")))) := by
    simp [UpdateStatement.pieces, Piece.toSigns, context]
  rw [signs, standings_headed, table.standings_append, Reading.standings_text,
    Reading.standings_append, set, Reading.standings_append, filtered,
    Reading.standings_of_marks_eq_nil (marks_ofText ";"), List.append_nil, Statement.bindings,
    List.map_append]

theorem standings_delete {s : DeleteStatement} (hfilter : ∃ a b, s.filter.IsCondition a b) :
    Reading.standings {} (Piece.signs s.pieces) =
      (Statement.delete s).bindings.map Binding.standing := by
  obtain ⟨a, b, filter⟩ := hfilter
  let context : Context := { clause := .deleteFrom, qualify := false }
  have table := s.table.isQuiet context ""
  have started : (headed "DELETE FROM ").IsAt .head := ⟨by decide, by decide⟩
  have filtered := standings_wherePieces filter (context.inClause .deleteFromWhere)
    (table.isIn_after started.isIn rfl) rfl rfl
  have signs : Piece.signs s.pieces = ofText "DELETE FROM " ++
      (Piece.signs (s.table.pieces context "") ++
      (Piece.signs (wherePieces s.filter (context.inClause .deleteFromWhere)) ++ ofText ";")) := by
    simp [DeleteStatement.pieces, Piece.toSigns, context]
  rw [signs, standings_headed, table.standings_append, Reading.standings_append, filtered,
    Reading.standings_of_marks_eq_nil (marks_ofText ";"), List.append_nil, Statement.bindings]

theorem standings_dropTable (s : DropTableStatement) :
    Reading.standings {} (Piece.signs s.pieces) =
      (Statement.dropTable s).bindings.map Binding.standing := by
  have markless : marks (Piece.signs s.pieces) = [] := by
    rw [Piece.marks_signs]
    exact Dialect.postgres.params_render_dropTable s
  rw [Reading.standings_of_marks_eq_nil markless, Statement.bindings, List.map_nil]

/-- The placeholders of a statement that is written well stand where its parameters do. -/
theorem Statement.WellWritten.standings {st : Statement} (h : st.WellWritten) {d : Dialect}
    (hd : d.marksByName = false) :
    Reading.standings {} (Piece.signs (st.pieces d)) = st.bindings.map Binding.standing := by
  cases st with
  | select s =>
      refine standings_select hd (fun j hj => h.conditions _ ?_) (h.conditions _ ?_)
      · exact List.mem_append_left _ (List.mem_map_of_mem hj)
      · exact List.mem_append_right _ (List.mem_singleton_self _)
  | insert s => exact standings_insert hd
  | update s => exact standings_update (h.conditions _ (List.mem_singleton_self _))
  | delete s => exact standings_delete (h.conditions _ (List.mem_singleton_self _))
  | createTable s => exact absurd rfl (h.creates_nothing s)
  | dropTable s => exact standings_dropTable s

/-! ## The texts of placeholders -/

namespace Dialect

/-- Numbered placeholders count on, one for every parameter. -/
theorem marks_marked_postgres (count : Nat) (ss : List (Sign Param)) :
    (marks (postgres.marked count ss)).map String.ofList =
      (List.range' count (marks ss).length).map fun i => "$" ++ toString (i + 1) := by
  induction ss generalizing count with
  | nil => rfl
  | cons s ss ih =>
      cases s with
      | char c => exact ih count
      | name s => exact ih count
      | mark p =>
          rw [marked, marks_mark, marks_mark, List.length_cons, List.range'_succ, List.map_cons,
            List.map_cons, String.ofList_toList]
          exact congrArg (_ :: ·) (ih (count + 1))

/-- There is a bare placeholder for every parameter. -/
theorem marks_marked_mySql (count : Nat) (ss : List (Sign Param)) :
    (marks (mySql.marked count ss)).map String.ofList =
      List.replicate (marks ss).length "?" := by
  induction ss generalizing count with
  | nil => rfl
  | cons s ss ih =>
      cases s with
      | char c => exact ih count
      | name s => exact ih count
      | mark p =>
          rw [marked, marks_mark, marks_mark, List.length_cons, List.replicate_succ, List.map_cons,
            String.ofList_toList]
          exact congrArg (_ :: ·) (ih (mySql.countParam count))

end Dialect

/-- **Placeholders line up with parameters.** The text of a query has as many placeholders as the
query has parameters, numbered from left to right or bare. They stand where the statement has its
parameters, in the same order, and each parameter is named after the column that its placeholder
stands for. -/
theorem placeholders_line_up {m : Model} {st : Statement} (h : m.Builds st) :
    (marks (Dialect.postgres.scan (Dialect.postgres.render st).sql)).map String.ofList =
        (List.range (Dialect.postgres.render st).params.length).map
          (fun i => "$" ++ toString (i + 1)) ∧
    (marks (Dialect.mySql.scan (Dialect.mySql.render st).sql)).map String.ofList =
        List.replicate (Dialect.mySql.render st).params.length "?" ∧
    ∀ d : Dialect, d = .postgres ∨ d = .mySql →
      (d.render st).params = st.bindings.map (·.param) ∧
      Reading.standings {} (d.scan (d.render st).sql) =
        st.bindings.map (fun b => some (b.site, b.column)) ∧
      ∀ b ∈ st.bindings, ∃ n, b.param.name = numberedName b.column n := by
  have written := m.wellWritten_of_builds h
  have scanned : ∀ d : Dialect, d.marksByName = false →
      d.scan (d.render st).sql = d.marked 0 (Piece.signs (st.pieces d)) := by
    intro d hd
    exact written.scan_render d fun named => absurd (hd.symm.trans named) (by decide)
  have params : ∀ d : Dialect, marks (Piece.signs (st.pieces d)) = (d.render st).params :=
    fun d => Piece.marks_signs (st.pieces d)
  refine ⟨?_, ?_, fun d hd => ⟨d.params_render st, ?_, fun b hb => ?_⟩⟩
  · rw [scanned _ rfl, Dialect.marks_marked_postgres, params, List.range_eq_range']
  · rw [scanned _ rfl, Dialect.marks_marked_mySql, params]
  · have unnamed : d.marksByName = false := by rcases hd with rfl | rfl <;> rfl
    rw [scanned d unnamed, Reading.standings_marked, written.standings unnamed]
    rfl
  · obtain ⟨numbers, -, hnumbered⟩ := written.numbered
    obtain ⟨n, -, hn⟩ := exists_of_mem_forall₂ hnumbered hb
    exact ⟨_, hn⟩

/-- Rows are marked in a table whose name has quotes and placeholders in it. What is set is counted
after the filter, and is rendered before it. -/
theorem placeholders_line_up_lookalikes :
    let p : Predicate := .compare .less "b" (.int32 (some 1))
    ∃ st supply,
      (Model.mk []).deleteWhere Sample.lookalikes p NumberedSupply.supply = .ok (st, supply) ∧
      (Dialect.mySql.render st).sql =
        "UPDATE \x60\"$1\" [?]\x60 SET \x60a_0\x60 = ?\nWHERE \x60a_1\x60 < ?;" ∧
      st.bindings.map (fun b => (b.site, b.column, b.param.name)) =
        [(.set, "a_0", "a_0_1"), (.filter, "a_1", "a_1_0")] ∧
      (marks (Dialect.mySql.scan (Dialect.mySql.render st).sql)).map String.ofList =
        List.replicate (Dialect.mySql.render st).params.length "?" ∧
      Reading.standings {} (Dialect.mySql.scan (Dialect.mySql.render st).sql) =
        st.bindings.map fun b => some (b.site, b.column) := by
  intro p
  obtain ⟨st, supply, h⟩ : ∃ st supply,
      (Model.mk []).deleteWhere Sample.lookalikes p NumberedSupply.supply = .ok (st, supply) :=
    ⟨_, _, rfl⟩
  obtain ⟨-, bare, rest⟩ := placeholders_line_up (.deleteWhere h)
  refine ⟨st, supply, h, ?_, ?_, bare, (rest .mySql (.inr rfl)).2.1⟩
  all_goals cases h
  · decide
  · decide

end GraphStore
