import GraphStore.Proofs.Outcome
import GraphStore.Proofs.Predicate.Meaning
import GraphStore.Proofs.Sql.Grammar
import GraphStore.Sample.Catalog

/-!
# Compiled predicates

The fragment that a predicate is compiled to is read as a condition that is true, false or unknown
exactly where the predicate is (`compile_meaning`). The proof follows the predicate. What is kept
for every part of it is `Compiles`: the fragment is a single operand of the grammar, with the
truth of the part or, when a negation has been carried down to it, of its negation.
-/

set_option autoImplicit false

namespace GraphStore

open Sqlite (Truth)

/-! ## Reading what the compiler writes -/

namespace Fragment

/-- The fragment is an operand that reads as a condition with the truth `t`. -/
def IsOperand (s : Semantics) (row : Valuation) (f : Fragment) (t : Truth) : Prop :=
  ∃ c, Reads .operand f.lexemes c ∧ c.truth s row = t

theorem lexemes_text_append {s : String} (h : closesSeparated s = true) (f : Fragment) :
    (ofText s ++ f).lexemes = (ofText s).lexemes ++ f.lexemes :=
  lexemes_append (.inl (closesApart_ofText h))

theorem lexemes_append_text {s : String} (h : opensSeparated s = true) (f : Fragment) :
    (f ++ ofText s).lexemes = f.lexemes ++ (ofText s).lexemes :=
  lexemes_append (.inr (opensApart_ofText h))

/-- A text with separators at both ends stands apart from what is around it. -/
theorem lexemes_between {s : String} (hs : s ≠ "") (hhead : opensSeparated s = true)
    (hlast : closesSeparated s = true) (f g : Fragment) :
    (f ++ ofText s ++ g).lexemes = f.lexemes ++ (ofText s).lexemes ++ g.lexemes := by
  have closes : (f ++ ofText s).ClosesApart :=
    (closesApart_ofText hlast).append (by simpa using hs) f
  rw [lexemes_append (.inl closes), lexemes_append_text hhead]

theorem lexemes_op (op : CompareOp) : (ofText (" " ++ op.sql ++ " ")).lexemes = [.compare op] := by
  cases op <;> decide

theorem lexemes_joined_params (ps : List Param) :
    (joined ", " (ps.map ofParam)).lexemes = listLexemes (ps.map Operand.param) := by
  induction ps with
  | nil => rfl
  | cons p ps ih =>
      cases ps with
      | nil => rfl
      | cons q qs =>
          have comma : (ofText ", ").lexemes = [.comma] := by decide
          rw [List.map_cons, List.map_cons, joined,
            lexemes_between (by decide) (by decide) (by decide), ← List.map_cons, ih, comma]
          · rfl
          · simp

end Fragment

open Fragment

/-! ## Connectives -/

namespace LogicalOp

/-- The level of the grammar on which a connective stands. -/
def level : LogicalOp → Level
  | and => .conjunction
  | or => .disjunction

/-- The condition that a connective makes of two. -/
def condition : LogicalOp → Condition → Condition → Condition
  | and => .and
  | or => .or

def lexeme : LogicalOp → Lexeme
  | and => .and
  | or => .or

theorem lexemes_sql (op : LogicalOp) : (ofText op.sql).lexemes = [op.lexeme] := by
  cases op <;> decide

theorem reads_of_operand (op : LogicalOp) {ls : List Lexeme} {c : Condition}
    (h : Reads .operand ls c) : Reads op.level ls c := by
  cases op with
  | and => exact .ofNegation (.ofOperand h)
  | or => exact .ofConjunction (.ofNegation (.ofOperand h))

theorem reads_condition (op : LogicalOp) {ls ls' : List Lexeme} {c d : Condition}
    (h : Reads .operand ls c) (h' : Reads op.level ls' d) :
    Reads op.level (ls ++ op.lexeme :: ls') (op.condition c d) := by
  cases op with
  | and => exact .and (.ofOperand h) h'
  | or => exact .or (.ofNegation (.ofOperand h)) h'

theorem reads_disjunction (op : LogicalOp) {ls : List Lexeme} {c : Condition}
    (h : Reads op.level ls c) : Reads .disjunction ls c := by
  cases op with
  | and => exact .ofConjunction h
  | or => exact h

theorem truth_condition (op : LogicalOp) (s : Semantics) (row : Valuation) {c d : Condition}
    {t : Truth} {ts : List Truth} (hc : c.truth s row = t)
    (hd : d.truth s row = Truth.connect op ts) :
    (op.condition c d).truth s row = Truth.connect op (t :: ts) := by
  cases op <;> simp [condition, Condition.truth, hc, hd, Truth.connect]

theorem connect_singleton (op : LogicalOp) (t : Truth) : Truth.connect op [t] = t := by
  cases op <;> simp [Truth.connect]

end LogicalOp

/-- Operands with a connective between them read as the connective of their truths. -/
theorem reads_joined (s : Semantics) (row : Valuation) (op : LogicalOp) {f : Fragment}
    {fs : List Fragment} {t : Truth} {ts : List Truth} (hf : f.IsOperand s row t)
    (h : List.Forall₂ (fun f t => f.IsOperand s row t) fs ts) :
    ∃ c, Reads op.level (joined op.sql (f :: fs)).lexemes c ∧
      c.truth s row = Truth.connect op (t :: ts) := by
  induction h generalizing f t with
  | nil =>
      obtain ⟨c, hc, ht⟩ := hf
      exact ⟨c, op.reads_of_operand hc, by rw [op.connect_singleton, ht]⟩
  | @cons g u gs us hg hgs ih =>
      obtain ⟨c, hc, ht⟩ := hf
      obtain ⟨d, hd, hu⟩ := ih hg
      refine ⟨op.condition c d, ?_, op.truth_condition s row ht hu⟩
      have apart : (joined op.sql (f :: g :: gs)).lexemes =
          f.lexemes ++ (ofText op.sql).lexemes ++ (joined op.sql (g :: gs)).lexemes := by
        rw [joined]
        · cases op <;> exact lexemes_between (by decide) (by decide) (by decide) _ _
        · simp
      rw [apart, op.lexemes_sql, List.append_assoc]
      exact op.reads_condition hc hd

theorem IsOperand.parentheses {s : Semantics} {row : Valuation} {f : Fragment} {t : Truth}
    (h : ∃ c, Reads .disjunction f.lexemes c ∧ c.truth s row = t) :
    (ofText "(" ++ f ++ ofText ")").IsOperand s row t := by
  obtain ⟨c, hc, ht⟩ := h
  refine ⟨c, ?_, ht⟩
  have opening : (ofText "(").lexemes = [.opening] := by decide
  have closing : (ofText ")").lexemes = [.closing] := by decide
  rw [lexemes_append_text (by decide), lexemes_text_append (by decide), opening, closing]
  exact .parentheses hc

theorem isOperand_constant (s : Semantics) (row : Valuation) (b : Bool) :
    (ofText (constantText b)).IsOperand s row (some b) := by
  have one : s.test .equal (.int64 (some 1)) (.int64 (some 1)) = some true :=
    s.test_equal_self rfl
  have zero : s.test .equal (.int64 (some 1)) (.int64 (some 0)) = some false := by
    -- numbers are tied in no database unless they are the same
    have apart : s.compare (.int64 (some 1)) (.int64 (some 0)) ≠ .eq := by
      intro tied
      have one_kind : Value.kind (.int64 (some 1)) = Value.kind (.int64 (some 0)) := rfl
      rcases s.same_of_tied rfl rfl one_kind tied with h | h <;> revert h <;> decide
    simp [Semantics.test, Value.isNull, CompareOp.holds, apart]
  cases b with
  | true =>
      refine ⟨.compare .equal (.number 1) (.number 1), ?_, one⟩
      have : (ofText (constantText true)).lexemes = [.number 1, .compare .equal, .number 1] := by
        decide
      rw [this]
      exact .test (.compare .equal (.number 1) (.number 1))
  | false =>
      refine ⟨.compare .equal (.number 1) (.number 0), ?_, zero⟩
      have : (ofText (constantText false)).lexemes = [.number 1, .compare .equal, .number 0] := by
        decide
      rw [this]
      exact .test (.compare .equal (.number 1) (.number 0))

theorem isOperand_connect (s : Semantics) (row : Valuation) (op : LogicalOp) {fs : List Fragment}
    {ts : List Truth} (h : List.Forall₂ (fun f t => f.IsOperand s row t) fs ts) :
    (connect op fs).IsOperand s row (Truth.connect op ts) := by
  cases h with
  | nil =>
      have := isOperand_constant s row (op == .and)
      cases op <;> exact this
  | @cons f t fs ts hf h =>
      cases h with
      | nil =>
          rw [op.connect_singleton]
          exact hf
      | @cons g u gs us hg hgs =>
          obtain ⟨c, hc, ht⟩ := reads_joined s row op hf (.cons hg hgs)
          exact IsOperand.parentheses ⟨c, op.reads_disjunction hc, ht⟩

/-! ## Tests of a column -/

/-- A column, a sign with separators around it, and a parameter. -/
theorem lexemes_test {s : String} (hs : s ≠ "") (hhead : opensSeparated s = true)
    (hlast : closesSeparated s = true) (c : ColumnToken) (p : Param) :
    (ofColumn c ++ ofText s ++ ofParam p).lexemes =
      .column c :: ((ofText s).lexemes ++ [.param p]) := by
  rw [lexemes_between hs hhead hlast, lexemes_ofColumn, lexemes_ofParam]
  rfl

/-- The parameters that stand for a list of values. -/
theorem exists_bindEach (column : String) (vs : List Value) (context : Context) :
    ∃ ps : List Param, (bindEach column vs context).1 = ps.map ofParam ∧
      ps.map Param.value = vs := by
  induction vs generalizing context with
  | nil => exact ⟨[], rfl, rfl⟩
  | cons v vs ih =>
      obtain ⟨ps, hps, hvs⟩ := ih (bindParam column v context).2
      refine ⟨⟨(context.paramName column).1, v⟩ :: ps, ?_, ?_⟩
      · rw [List.map_cons, ← hps]
        rfl
      · rw [List.map_cons, hvs]

theorem isOperand_isNull (s : Semantics) (row : Valuation) (c : ColumnToken) :
    (ofColumn c ++ ofText " IS NULL").IsOperand s row (some (row c).isNull) := by
  have sign : (ofText " IS NULL").lexemes = [.is, .null] := by decide
  refine ⟨.isNull (.column c), ?_, rfl⟩
  rw [lexemes_append_text (by decide), sign]
  exact .test (.isNull (.column c))

theorem isOperand_isNotNull (s : Semantics) (row : Valuation) (c : ColumnToken) :
    (ofColumn c ++ ofText " IS NOT NULL").IsOperand s row (some !(row c).isNull) := by
  have sign : (ofText " IS NOT NULL").lexemes = [.is, .not, .null] := by decide
  refine ⟨.not (.isNull (.column c)), ?_, rfl⟩
  rw [lexemes_append_text (by decide), sign]
  exact .test (.isNotNull (.column c))

theorem isOperand_test (s : Semantics) (row : Valuation) (op : CompareOp) (c : ColumnToken)
    (p : Param) : (ofColumn c ++ ofText (" " ++ op.sql ++ " ") ++ ofParam p).IsOperand s row
      (s.test op (row c) p.value) := by
  have lexemes : (ofColumn c ++ ofText (" " ++ op.sql ++ " ") ++ ofParam p).lexemes =
      .column c :: ((ofText (" " ++ op.sql ++ " ")).lexemes ++ [.param p]) := by
    cases op <;> exact lexemes_test (by decide) (by decide) (by decide) c p
  refine ⟨.compare op (.column c) (.param p), ?_, rfl⟩
  rw [lexemes, lexemes_op]
  exact .test (.compare op (.column c) (.param p))

theorem isOperand_like (s : Semantics) (row : Valuation) (negated : Bool) (c : ColumnToken)
    (p : Param) : (ofColumn c ++ ofText (likeText negated) ++ ofParam p).IsOperand s row
      (negatedIf negated (s.like (row c) p.value)) := by
  cases negated with
  | false =>
      have sign : (ofText (likeText false)).lexemes = [.like] := by decide
      refine ⟨.like (.column c) (.param p), ?_, rfl⟩
      rw [lexemes_test (by decide) (by decide) (by decide), sign]
      exact .test (.like (.column c) (.param p))
  | true =>
      have sign : (ofText (likeText true)).lexemes = [.not, .like] := by decide
      refine ⟨.not (.like (.column c) (.param p)), ?_, rfl⟩
      rw [lexemes_test (by decide) (by decide) (by decide), sign]
      exact .test (.notLike (.column c) (.param p))

theorem isOperand_among (s : Semantics) (row : Valuation) (negated : Bool) (c : ColumnToken)
    {ps : List Param} (h : ps ≠ []) :
    (ofColumn c ++ ofText (inText negated) ++ joined ", " (ps.map ofParam) ++ ofText ")").IsOperand
      s row (negatedIf negated (s.member (row c) (ps.map Param.value))) := by
  have closing : (ofText ")").lexemes = [.closing] := by decide
  have items : ps.map Operand.param ≠ [] := by simpa using h
  have values : (ps.map Operand.param).map (Operand.value row) = ps.map Param.value := by
    rw [List.map_map]
    rfl
  cases negated with
  | false =>
      have sign : (ofText (inText false)).lexemes = [.among, .opening] := by decide
      refine ⟨.among (.column c) (ps.map .param), ?_, ?_⟩
      · rw [lexemes_append_text (by decide),
          lexemes_between (by decide) (by decide) (by decide), sign, closing,
          lexemes_joined_params, lexemes_ofColumn]
        exact .test (.among (.column c) _ items)
      · rw [Condition.truth, values]
        rfl
  | true =>
      have sign : (ofText (inText true)).lexemes = [.not, .among, .opening] := by decide
      refine ⟨.not (.among (.column c) (ps.map .param)), ?_, ?_⟩
      · rw [lexemes_append_text (by decide),
          lexemes_between (by decide) (by decide) (by decide), sign, closing,
          lexemes_joined_params, lexemes_ofColumn]
        exact .test (.notAmong (.column c) _ items)
      · rw [Condition.truth, Condition.truth, values]
        rfl

/-! ## The parts of a predicate -/

namespace Model

variable (m : Model) (map : EntityMap) (s : Semantics) (row : Valuation)

theorem pathValues_of_resolve {m : Model} {map : EntityMap} {path : String}
    {resolved : ResolvedPath} (h : m.resolve map path = .ok resolved) (row : Valuation) :
    m.pathValues map row path = row resolved.token := by
  simp only [pathValues, h]

theorem isOperand_compileCompare {op : CompareOp} {path : String} {v : Value} {negated : Bool}
    {context context' : Context} {f : Fragment}
    (h : m.compileCompare map op path v negated context = .ok (f, context')) :
    f.IsOperand s row
      (negatedIf negated (Predicate.compareTruth s op (m.pathValues map row path) v)) := by
  unfold compileCompare at h
  obtain ⟨resolved, hresolved, h⟩ := ok_of_bind h
  rw [pathValues_of_resolve hresolved]
  by_cases hv : v.isNull = true
  · simp only [hv, if_true] at h
    obtain ⟨test, htest, h⟩ := ok_of_bind h
    cases h
    -- of the comparisons with null only the two that ask for presence are compiled
    cases negated <;> cases op <;> cases htest <;>
      simp only [Predicate.compareTruth, hv, if_true, negatedIf_true, negatedIf_false,
        Truth.not, Option.map_some, Bool.not_not] <;>
      first
        | exact isOperand_isNull s row resolved.token
        | exact isOperand_isNotNull s row resolved.token
  · rw [if_neg hv] at h
    cases h
    have truth : negatedIf negated (Predicate.compareTruth s op (row resolved.token) v) =
        s.test (if negated then op.negate else op) (row resolved.token) v := by
      cases negated with
      | false => simp [Predicate.compareTruth, hv]
      | true => simp [Predicate.compareTruth, hv, s.test_negate]
    rw [truth]
    exact isOperand_test s row _ resolved.token _

theorem isOperand_compileLike {path pattern : String} {negated : Bool}
    {context context' : Context} {f : Fragment}
    (h : m.compileLike map path pattern negated context = .ok (f, context')) :
    f.IsOperand s row (negatedIf negated
      (s.like (m.pathValues map row path) (.varchar (some pattern)))) := by
  unfold compileLike at h
  obtain ⟨resolved, hresolved, h⟩ := ok_of_bind h
  rw [pathValues_of_resolve hresolved]
  cases h
  exact isOperand_like s row negated resolved.token _

theorem isOperand_compileIn {path : String} {vs : List Value} {negated : Bool}
    {context context' : Context} {f : Fragment}
    (h : m.compileIn map path vs negated context = .ok (f, context')) :
    f.IsOperand s row (negatedIf negated (s.member (m.pathValues map row path) vs)) := by
  unfold compileIn at h
  obtain ⟨resolved, hresolved, h⟩ := ok_of_bind h
  rw [pathValues_of_resolve hresolved]
  cases vs with
  | nil =>
      cases h
      have := isOperand_constant s row negated
      cases negated <;> exact this
  | cons v vs =>
      -- the list is not empty, so that there is something between the parentheses
      obtain ⟨ps, hps, hvs⟩ := exists_bindEach resolved.column.name (v :: vs) context
      have nonempty : ps ≠ [] := by
        rintro rfl
        cases hvs
      have fragment : f = ofColumn resolved.token ++ ofText (inText negated) ++
          joined ", " (ps.map ofParam) ++ ofText ")" := by
        rw [← hps]
        cases h
        rfl
      rw [fragment, ← hvs]
      exact isOperand_among s row negated resolved.token nonempty

/-- A call that is compiled gives a text to a text method, or a list to a list method. -/
theorem compileCall_eq_ok {m : Model} {map : EntityMap} {method path : String}
    {argument : Argument} {negated : Bool} {context : Context} {result : Fragment × Context} :
    m.compileCall map method path argument negated context = .ok result ↔
      (∃ text, argument = .value (.varchar (some text)) ∧ isTextMethod method = true ∧
        m.compileLike map path (likePattern method text) negated context = .ok result) ∨
      (∃ vs, argument = .list vs ∧ isListMethod method = true ∧
        m.compileIn map path vs negated context = .ok result) := by
  constructor
  · intro h
    unfold compileCall at h
    split at h
    next v =>
      split at h
      next htext =>
        split at h
        next text => exact .inl ⟨text, rfl, htext, h⟩
        next => cases h
      next => split at h <;> cases h
    next vs =>
      split at h
      next hlist => exact .inr ⟨vs, rfl, hlist, h⟩
      next => split at h <;> cases h
  · rintro (⟨text, rfl, htext, h⟩ | ⟨vs, rfl, hlist, h⟩)
    · simpa only [compileCall, htext, if_true] using h
    · simpa only [compileCall, hlist, if_true] using h

theorem isOperand_compileCall {method path : String} {argument : Argument} {negated : Bool}
    {context context' : Context} {f : Fragment}
    (h : m.compileCall map method path argument negated context = .ok (f, context')) :
    f.IsOperand s row (negatedIf negated
      (Predicate.callTruth s method (m.pathValues map row path) argument)) := by
  rcases compileCall_eq_ok.mp h with ⟨text, rfl, -, h⟩ | ⟨vs, rfl, -, h⟩
  · exact m.isOperand_compileLike map s row h
  · exact m.isOperand_compileIn map s row h

mutual

/-- What is kept for every part of a predicate. -/
theorem isOperand_compileWith (p : Predicate) (negated : Bool) (context : Context)
    {f : Fragment} {context' : Context}
    (h : m.compileWith map p negated context = .ok (f, context')) :
    f.IsOperand s row (negatedIf negated (p.truth s (m.pathValues map row))) := by
  cases p with
  | compare op path v => exact m.isOperand_compileCompare map s row h
  | logical op children =>
      rw [compileWith] at h
      obtain ⟨⟨fs, context₁⟩, hfs, h⟩ := ok_of_bind h
      cases h
      have parts := isOperand_compileEach children negated context hfs
      -- the negation goes into the parts, with the dual connective between them
      rw [Predicate.truth, Predicate.truthEach_eq_map, negatedIf_connect, List.map_map]
      exact isOperand_connect s row _ parts
  | call method path argument => exact m.isOperand_compileCall map s row h
  | not inner =>
      rw [compileWith] at h
      have := isOperand_compileWith inner (!negated) context h
      rwa [Predicate.truth, negatedIf_not]
  | constant v =>
      cases h
      have := isOperand_constant s row (v != negated)
      cases v <;> cases negated <;> exact this

theorem isOperand_compileEach (ps : List Predicate) (negated : Bool) (context : Context)
    {fs : List Fragment} {context' : Context}
    (h : m.compileEach map ps negated context = .ok (fs, context')) :
    List.Forall₂ (fun f t => f.IsOperand s row t) fs
      (ps.map (negatedIf negated ∘ Predicate.truth s (m.pathValues map row))) := by
  cases ps with
  | nil =>
      cases h
      exact .nil
  | cons p ps =>
      rw [compileEach] at h
      obtain ⟨⟨f, context₁⟩, hf, h⟩ := ok_of_bind h
      obtain ⟨⟨gs, context₂⟩, hgs, h⟩ := ok_of_bind h
      cases h
      exact .cons (isOperand_compileWith p negated context hf)
        (isOperand_compileEach ps negated context₁ hgs)

end

end Model

/-! ## The meaning of the compiled predicate -/

/-- The reading of an operand depends neither on the database nor on the row. -/
theorem Fragment.exists_condition {f : Fragment} {t : Semantics → Valuation → Truth}
    (h : ∀ s row, f.IsOperand s row (t s row)) :
    ∃ c, Reads .operand f.lexemes c ∧ ∀ s row, c.truth s row = t s row := by
  -- any database and row will do to find the condition
  obtain ⟨c, hc, -⟩ := h .byContent fun _ => .null
  refine ⟨c, hc, fun s row => ?_⟩
  obtain ⟨d, hd, ht⟩ := h s row
  rwa [hc.unique_operand hd]

theorem Fragment.condition?_of_operand {f : Fragment} {c : Condition}
    (h : Reads .operand f.lexemes c) : f.condition? = some c :=
  Fragment.condition?_eq_some_iff.mpr (.ofConjunction (.ofNegation (.ofOperand h)))

/-- An operand and what reads as a conjunction read as the conjunction of the two. -/
theorem Fragment.reads_and {f g : Fragment} {c d : Condition} (hf : Reads .operand f.lexemes c)
    (hg : Reads .conjunction g.lexemes d) :
    Reads .conjunction (f ++ ofText " AND " ++ g).lexemes (.and c d) := by
  have sign : (ofText " AND ").lexemes = [.and] := by decide
  rw [lexemes_between (by decide) (by decide) (by decide), sign, List.append_assoc]
  exact .and (.ofOperand hf) hg

namespace Model

/-- The compiled predicate is one operand, with the truth of the predicate. -/
theorem exists_condition_compile {m : Model} {map : EntityMap} {p : Predicate}
    {context context' : Context} {f : Fragment}
    (h : m.compile map p context = .ok (f, context')) :
    ∃ c, Reads .operand f.lexemes c ∧
      ∀ s row, c.truth s row = p.truth s (m.pathValues map row) :=
  Fragment.exists_condition fun s row => m.isOperand_compileWith map s row p false context h

/-- **Compiling keeps the meaning of a predicate.** The fragment reads as a condition that has the
truth of the predicate in every database and every row, and `AND` after it joins it as a whole
with what follows. -/
theorem compile_meaning {m : Model} {map : EntityMap} {p : Predicate} {context context' : Context}
    {f : Fragment} (h : m.compile map p context = .ok (f, context')) :
    ∃ c, f.condition? = some c ∧
      (∀ s row, c.truth s row = p.truth s (m.pathValues map row)) ∧
      ∀ g d, Reads .conjunction g.lexemes d →
        (f ++ .ofText " AND " ++ g).condition? = some (.and c d) := by
  obtain ⟨c, hc, truth⟩ := exists_condition_compile h
  refine ⟨c, Fragment.condition?_of_operand hc, truth, fun g d hg => ?_⟩
  rw [Fragment.condition?_eq_some_iff]
  exact .ofConjunction (Fragment.reads_and hc hg)

/-- A negation carried down to a test for null, an empty list, and a list with a null in it. -/
theorem compile_meaning_of_negation :
    let p : Predicate := .not (.logical .or
      [.compare .equal "title" .null, .not (.logical .and []),
        .call "in" "author.born" (.list [.int32 (some 1815), .int32 none])])
    let m := Sample.model none none
    ∃ map f context', m.entityMap "sql::Book" = .ok map ∧ m.compile map p {} = .ok (f, context') ∧
      ∃ c, f.condition? = some c ∧
        (∀ s row, c.truth s row = p.truth s (m.pathValues map row)) ∧
        ∀ g d, Reads .conjunction g.lexemes d →
          (f ++ .ofText " AND " ++ g).condition? = some (.and c d) :=
  ⟨_, _, _, rfl, rfl, compile_meaning rfl⟩

end Model

end GraphStore
