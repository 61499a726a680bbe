import GraphStore.Proofs.Statement.Legible
import GraphStore.Sample.Graphs

/-!
# Placeholders that are names

In two dialects a placeholder is a mark and the name of its parameter, and it is read as far as the
characters of a plain identifier go. The name of a parameter begins with that of its column, which
stands there as it is, while it is quoted everywhere else. So the placeholders of a query are read
as the parameters that they stand for if and only if the columns of these parameters have names of
such characters (`named_placeholders`).
-/

set_option autoImplicit false

namespace GraphStore

/-! ## Reading identifiers -/

namespace Dialect

/-- The characters of a plain identifier: letters, digits, the underscore and the dollar sign. What
is no ASCII belongs to them in one dialect, and in the other one if it is a letter. -/
def isNameChar (letter : Char → Bool) : Dialect → Char → Bool
  | sqlServer, c => c.isAlphanum || c == '_' || c == '$' || (decide ('\x80' ≤ c) && letter c)
  | _, c => isWordChar c || c == '$'

/-- The text of a placeholder: the mark and an identifier. -/
def IsNamed (letter : Char → Bool) (d : Dialect) (text : List Char) : Prop :=
  ∃ name, text = d.markSign :: name ∧ ∀ c ∈ name, d.isNameChar letter c = true

/-- As signs are scanned, but with placeholders that go on as identifiers do. -/
def scanNameChar (letter : Char → Bool) (d : Dialect) :
    Scanning → Char → List (Sign (List Char)) × Scanning
  | .mark read, c =>
      if d.isNameChar letter c then ([], .mark (read ++ [c])) else d.scanAfter (.mark read) c
  | s, c => d.scanChar s c

def scanNamesFrom (letter : Char → Bool) (d : Dialect) :
    Scanning → List Char → List (Sign (List Char))
  | s, [] => s.stop
  | s, c :: cs =>
      (d.scanNameChar letter s c).1 ++ d.scanNamesFrom letter (d.scanNameChar letter s c).2 cs

/-- The signs of a text. -/
def scanNames (letter : Char → Bool) (d : Dialect) (text : String) : List (Sign (List Char)) :=
  d.scanNamesFrom letter .outside text.toList

variable {letter : Char → Bool} {d : Dialect}

theorem markGoesOn_of_isNameChar (hd : d.marksByName = true) {c : Char}
    (h : d.isNameChar letter c = true) : d.markGoesOn c = true := by
  cases d with
  | postgres => cases hd
  | sqlite => exact h
  | mySql => cases hd
  | sqlServer =>
      simp only [isNameChar, Bool.or_eq_true, Bool.and_eq_true] at h
      simp only [markGoesOn, isWordChar, Bool.or_eq_true]
      rcases h with ((h | h) | h) | ⟨h, -⟩
      · exact .inl (.inl (.inl (.inl (.inl h))))
      · exact .inl (.inl (.inl (.inl (.inr h))))
      · exact .inl (.inr h)
      · exact .inl (.inl (.inl (.inr h)))

/-! ### What is read -/

/-- A placeholder that is being read has begun with the mark and gone on as an identifier. -/
def Reads (letter : Char → Bool) (d : Dialect) (s : Scanning) : Prop :=
  ∀ read, s = .mark read → d.IsNamed letter read

theorem reads_outside : Reads letter d .outside := by simp [Reads]

theorem reads_name (read : List Char) : Reads letter d (.name read) := by simp [Reads]

theorem reads_closing (read : List Char) : Reads letter d (.closing read) := by simp [Reads]

theorem isNamed_markSign : d.IsNamed letter [d.markSign] := ⟨[], rfl, by simp⟩

theorem isNamed_concat {read : List Char} {c : Char} (h : d.IsNamed letter read)
    (hc : d.isNameChar letter c = true) : d.IsNamed letter (read ++ [c]) := by
  obtain ⟨name, rfl, hname⟩ := h
  refine ⟨name ++ [c], rfl, fun c' hc' => ?_⟩
  rcases List.mem_append.mp hc' with hmem | hmem
  · exact hname c' hmem
  · rw [List.mem_singleton.mp hmem]
    exact hc

/-- Only the mark begins a placeholder. -/
theorem reads_scanOutside (letter : Char → Bool) (d : Dialect) (c : Char) :
    Sign.marks (d.scanOutside c).1 = [] ∧ Reads letter d (d.scanOutside c).2 := by
  unfold scanOutside
  split
  · exact ⟨rfl, reads_name []⟩
  · split
    next hc =>
      refine ⟨rfl, fun read hread => ?_⟩
      cases hread
      rw [hc]
      exact isNamed_markSign
    next => exact ⟨rfl, reads_outside⟩

theorem isNamed_of_mem_stop {s : Scanning} (h : Reads letter d s) {text : List Char}
    (hmem : text ∈ Sign.marks s.stop) : d.IsNamed letter text := by
  cases s with
  | mark read =>
      rw [List.mem_singleton.mp hmem]
      exact h read rfl
  | _ => cases hmem

theorem reads_scanAfter {s : Scanning} (h : Reads letter d s) (c : Char) :
    (∀ text ∈ Sign.marks (d.scanAfter s c).1, d.IsNamed letter text) ∧
      Reads letter d (d.scanAfter s c).2 := by
  obtain ⟨none, later⟩ := reads_scanOutside letter d c
  refine ⟨fun text hmem => ?_, later⟩
  rw [scanAfter, Sign.marks_append, none, List.append_nil] at hmem
  exact isNamed_of_mem_stop h hmem

/-- One character: the placeholder that ends with it is a mark and an identifier, and so is what is
read of the next one. -/
theorem reads_scanNameChar {s : Scanning} (h : Reads letter d s) (c : Char) :
    (∀ text ∈ Sign.marks (d.scanNameChar letter s c).1, d.IsNamed letter text) ∧
      Reads letter d (d.scanNameChar letter s c).2 := by
  cases s with
  | outside =>
      obtain ⟨none, later⟩ := reads_scanOutside letter d c
      refine ⟨fun text hmem => ?_, later⟩
      change text ∈ Sign.marks (d.scanOutside c).1 at hmem
      rw [none] at hmem
      cases hmem
  | name read =>
      change (∀ text ∈ Sign.marks (d.scanChar (.name read) c).1, _) ∧
        Reads letter d (d.scanChar (.name read) c).2
      rw [scanChar]
      split
      · exact ⟨List.forall_mem_nil _, reads_closing read⟩
      · exact ⟨List.forall_mem_nil _, reads_name _⟩
  | closing read =>
      change (∀ text ∈ Sign.marks (d.scanChar (.closing read) c).1, _) ∧
        Reads letter d (d.scanChar (.closing read) c).2
      rw [scanChar]
      split
      · exact ⟨List.forall_mem_nil _, reads_name _⟩
      · exact reads_scanAfter h c
  | mark read =>
      rw [scanNameChar]
      split
      next hc =>
        refine ⟨List.forall_mem_nil _, fun read' hread => ?_⟩
        cases hread
        exact isNamed_concat (h read rfl) hc
      next => exact reads_scanAfter h c

/-- Whatever the text, its placeholders are marks with identifiers. -/
theorem isNamed_of_mem_scanNamesFrom {s : Scanning} (h : Reads letter d s) {cs : List Char} :
    ∀ text ∈ Sign.marks (d.scanNamesFrom letter s cs), d.IsNamed letter text := by
  induction cs generalizing s with
  | nil => exact fun text hmem => isNamed_of_mem_stop h hmem
  | cons c cs ih =>
      intro text hmem
      obtain ⟨ended, later⟩ := reads_scanNameChar h c
      rw [scanNamesFrom, Sign.marks_append, List.mem_append] at hmem
      rcases hmem with hmem | hmem
      · exact ended text hmem
      · exact ih later text hmem

/-! ### Both ways of scanning -/

/-- A placeholder that is being read is the beginning of one that will have been read. -/
theorem exists_mark_of_reading (read cs : List Char) :
    ∃ more, read ++ more ∈ Sign.marks (d.scanFrom (.mark read) cs) := by
  induction cs generalizing read with
  | nil => exact ⟨[], by simp [scanFrom, Scanning.stop, Sign.marks]⟩
  | cons c cs ih =>
      rw [scanFrom, scanChar]
      split
      · obtain ⟨more, hmore⟩ := ih (read ++ [c])
        refine ⟨c :: more, ?_⟩
        rw [Sign.marks_append, List.mem_append]
        exact .inr (by simpa using hmore)
      · refine ⟨[], ?_⟩
        rw [scanAfter, Sign.marks_append, Sign.marks_append, List.append_nil]
        simp [Scanning.stop, Sign.marks]

/-- Something has been read of a placeholder as soon as it begins. -/
theorem scanChar_ne (s : Scanning) (c : Char) : (d.scanChar s c).2 ≠ .mark [] := by
  have outside : (d.scanOutside c).2 ≠ .mark [] := by
    unfold scanOutside
    split
    · simp
    · split <;> simp
  cases s with
  | outside => exact outside
  | name read =>
      rw [scanChar]
      split <;> simp
  | closing read =>
      rw [scanChar]
      split
      · simp
      · exact outside
  | mark read =>
      rw [scanChar]
      split
      · simp
      · exact outside

/-- A text whose placeholders are marks with identifiers is scanned alike in both ways. -/
theorem scanNamesFrom_eq (hd : d.marksByName = true) {s : Scanning} {cs : List Char}
    (hs : s ≠ .mark []) (h : ∀ text ∈ Sign.marks (d.scanFrom s cs), d.IsNamed letter text) :
    d.scanNamesFrom letter s cs = d.scanFrom s cs := by
  induction cs generalizing s with
  | nil => rfl
  | cons c cs ih =>
      have step : d.scanNameChar letter s c = d.scanChar s c := by
        cases s with
        | mark read =>
            rw [scanNameChar, scanChar]
            by_cases hc : d.isNameChar letter c = true
            · rw [if_pos hc, if_pos (markGoesOn_of_isNameChar hd hc)]
            · rw [if_neg hc, if_neg]
              -- else a placeholder is read that has the character in it
              intro goesOn
              obtain ⟨more, hmore⟩ := exists_mark_of_reading (d := d) (read ++ [c]) cs
              have whole : read ++ [c] ++ more ∈
                  Sign.marks (d.scanFrom (.mark read) (c :: cs)) := by
                rw [scanFrom, scanChar, if_pos goesOn, List.nil_append]
                exact hmore
              obtain ⟨name, hname, plain⟩ := h _ whole
              cases read with
              | nil => exact hs rfl
              | cons first read =>
                  have rest : read ++ [c] ++ more = name := by simpa using congrArg List.tail hname
                  exact hc (plain c (by simp [← rest]))
        | _ => rfl
      rw [scanNamesFrom, scanFrom, step]
      refine congrArg _ (ih (scanChar_ne s c) fun text hmem => h text ?_)
      rw [scanFrom, Sign.marks_append, List.mem_append]
      exact .inr hmem

/-- What the placeholders of named parameters are written as. -/
theorem marks_marked_of_marksByName (hd : d.marksByName = true) (count : Nat)
    (ss : List (Sign Param)) : Sign.marks (d.marked count ss) =
      (Sign.marks ss).map fun p => d.markSign :: p.name.toList := by
  induction ss generalizing count with
  | nil => rfl
  | cons s ss ih =>
      cases s with
      | char c => exact ih count
      | name s => exact ih count
      | mark p =>
          rw [marked, Sign.marks_mark, ih, Sign.marks_mark, List.map_cons, toList_placeholder hd]

end Dialect

/-! ## The placeholders of a statement -/

section

variable {m : Model} {st : Statement} {d : Dialect} {letter : Char → Bool}

/-- The columns after which the parameters of a statement are named are plain identifiers. -/
def Statement.NamesPlainly (letter : Char → Bool) (d : Dialect) (st : Statement) : Prop :=
  ∀ b ∈ st.bindings, ∀ c ∈ b.column.toList, d.isNameChar letter c = true

instance : Decidable (st.NamesPlainly letter d) :=
  decidable_of_iff
    (st.bindings.all (fun b => b.column.toList.all (d.isNameChar letter)) = true)
    (by simp only [Statement.NamesPlainly, List.all_eq_true])

/-- The name of a parameter has the characters of its column in it, and an underscore and digits. -/
theorem Statement.WellWritten.isNameChar_iff (h : st.WellWritten) :
    st.NamesPlainly letter d ↔
      ∀ b ∈ st.bindings, ∀ c ∈ b.param.name.toList, d.isNameChar letter c = true := by
  obtain ⟨numbers, -, hnumbered⟩ := h.numbered
  refine forall_congr' fun b => forall_congr' fun hb => ?_
  obtain ⟨n, -, hn⟩ := exists_of_mem_forall₂ hnumbered hb
  rw [hn]
  constructor
  · intro plain c hc
    rcases mem_numberedName hc with hc | rfl | digit
    · exact plain c hc
    · cases d <;> rfl
    · cases d <;> simp [Dialect.isNameChar, isWordChar, Char.isAlphanum, digit]
  · intro plain c hc
    refine plain c ?_
    rw [numberedName, String.toList_append, String.toList_append, List.append_assoc]
    exact List.mem_append_left _ hc

/-- **Named placeholders are read as written if and only if the columns have plain names.** For
every statement that is built, in the dialects whose placeholders are names: the placeholders that
are read of the query, each as far as an identifier goes, are the names of its parameters behind
the mark, in order, if and only if every column that a parameter is named after is called by a plain
identifier; and then they are single signs of the query, between the signs of the other pieces. -/
theorem named_placeholders (h : m.Builds st) (hd : d.marksByName = true)
    (letter : Char → Bool) :
    (Sign.marks (d.scanNames letter (d.render st).sql) =
        (d.render st).params.map (fun p => d.markSign :: p.name.toList) ↔
      st.NamesPlainly letter d) ∧
    (st.NamesPlainly letter d →
      d.scanNames letter (d.render st).sql = d.marked 0 (Piece.signs (st.pieces d))) := by
  have written := m.wellWritten_of_builds h
  have params : Piece.params (st.pieces d) = (d.render st).params := rfl
  have whole : st.NamesPlainly letter d →
      d.scanNames letter (d.render st).sql = d.marked 0 (Piece.signs (st.pieces d)) := by
    intro plain
    have scanned : d.scan (d.render st).sql = d.marked 0 (Piece.signs (st.pieces d)) :=
      written.scan_render d fun _ b hb c hc => d.markGoesOn_of_isNameChar hd (plain b hb c hc)
    rw [← scanned]
    refine Dialect.scanNamesFrom_eq hd (by simp) fun text hmem => ?_
    change text ∈ Sign.marks (d.scan (d.render st).sql) at hmem
    rw [scanned, Dialect.marks_marked_of_marksByName hd, Piece.marks_signs, params,
      d.params_render, List.map_map] at hmem
    obtain ⟨b, hb, rfl⟩ := List.mem_map.mp hmem
    exact ⟨b.param.name.toList, rfl, written.isNameChar_iff.mp plain b hb⟩
  refine ⟨⟨fun read => ?_, fun plain => ?_⟩, whole⟩
  · rw [written.isNameChar_iff]
    intro b hb
    have mem : d.markSign :: b.param.name.toList ∈
        Sign.marks (d.scanNames letter (d.render st).sql) := by
      rw [read, d.params_render, List.map_map]
      exact List.mem_map.mpr ⟨b, hb, rfl⟩
    obtain ⟨name, hname, plain⟩ :=
      Dialect.isNamed_of_mem_scanNamesFrom Dialect.reads_outside _ mem
    rw [(List.cons.inj hname).2]
    exact plain
  · rw [whole plain, Dialect.marks_marked_of_marksByName hd, Piece.marks_signs, params]

end

/-- Rows are marked whose columns are called as parameters are. -/
theorem named_placeholders_lookalikes :
    let p : Predicate := .compare .less "b" (.int32 (some 1))
    ∃ st supply,
      (Model.mk []).deleteWhere Sample.lookalikes p NumberedSupply.supply = .ok (st, supply) ∧
      Sign.marks (Dialect.sqlServer.scanNames (fun _ => false) (Dialect.sqlServer.render st).sql) =
        ["@a_0_1".toList, "@a_1_0".toList] := by
  intro p
  obtain ⟨st, supply, h⟩ : ∃ st supply,
      (Model.mk []).deleteWhere Sample.lookalikes p NumberedSupply.supply = .ok (st, supply) :=
    ⟨_, _, rfl⟩
  refine ⟨st, supply, h, ?_⟩
  have plain : st.NamesPlainly (fun _ => false) .sqlServer := by
    cases h
    decide +kernel
  refine ((named_placeholders (.deleteWhere h) rfl _).1.mpr plain).trans ?_
  cases h
  decide +kernel

namespace Sample

/-- Records of one column apart from the key, whose name is two words. -/
def spaced : Model := model
  (some {
    table := "mains"
    columns := [generatedColumn "id", { column "code" with name := "item code" }] }) none

end Sample

/-- The name of a column may be two words. Then the placeholder of its parameter is read as far as
the first one goes, which is the name of no parameter. -/
theorem placeholder_of_two_words : ∃ map st b,
    Sample.spaced.entityMap "Main" = .ok map ∧
    Edit.insert map false ⟨Sample.mainPrototype, NumberedSupply.supply⟩ = .ok (some st) b ∧
    ∀ d : Dialect, d.marksByName = true →
      (d.render (.insert st)).params.map (fun p => p.name) = ["item code_0"] ∧
      Sign.marks (d.scanNames (fun _ => true) (d.render (.insert st)).sql) =
        [d.markSign :: "item".toList] ∧
      Sign.marks (d.scanNames (fun _ => true) (d.render (.insert st)).sql) ≠
        (d.render (.insert st)).params.map (fun p => d.markSign :: p.name.toList) := by
  obtain ⟨map, hmap⟩ : ∃ map, Sample.spaced.entityMap "Main" = .ok map := ⟨_, rfl⟩
  obtain ⟨st, b, hinsert⟩ : ∃ st b, Edit.insert map false
      ⟨Sample.mainPrototype, NumberedSupply.supply⟩ = .ok (some st) b := by
    cases hmap
    exact ⟨_, _, rfl⟩
  refine ⟨map, st, b, hmap, hinsert, fun d hd => ?_⟩
  cases hmap
  cases hinsert
  cases d with
  | postgres => cases hd
  | mySql => cases hd
  | sqlite => decide +kernel
  | sqlServer => decide +kernel

end GraphStore
