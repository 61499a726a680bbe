import GraphStore.Proofs.Sql.Condition
import GraphStore.Proofs.Sql.Lexing

/-!
# Reading conditions

The grammar of conditions: `NOT` binds tighter than `AND`, and `AND` tighter than `OR`. The
grammar is stated twice, as a relation that says which lexemes read as which condition at which
level (`Reads`), and as a reader that takes lexemes off the front of a list (`readAt`). The reader
finds a condition exactly when the grammar allows it (`readCondition?_eq_some_iff`), so there is
never more than one.
-/

set_option autoImplicit false

namespace GraphStore

def Operand.lexeme : Operand → Lexeme
  | column c => .column c
  | param p => .param p
  | number n => .number n

/-- The operand that a lexeme is. -/
def Lexeme.operand? : Lexeme → Option Operand
  | column c => some (.column c)
  | param p => some (.param p)
  | number n => some (.number n)
  | _ => none

@[simp] theorem Operand.operand?_lexeme (x : Operand) : x.lexeme.operand? = some x := by
  cases x <;> rfl

theorem Lexeme.eq_lexeme_of_operand? {l : Lexeme} {x : Operand} (h : l.operand? = some x) :
    l = x.lexeme := by
  cases l <;> cases h <;> rfl

/-! ## The grammar -/

/-- Operands with commas between them. -/
def listLexemes : List Operand → List Lexeme
  | [] => []
  | [x] => [x.lexeme]
  | x :: xs => x.lexeme :: .comma :: listLexemes xs

/-- The tests of a single row, each about an operand. -/
inductive ReadsTest : List Lexeme → Condition → Prop where
  | compare (op : CompareOp) (x y : Operand) :
      ReadsTest [x.lexeme, .compare op, y.lexeme] (.compare op x y)
  | isNull (x : Operand) : ReadsTest [x.lexeme, .is, .null] (.isNull x)
  | isNotNull (x : Operand) : ReadsTest [x.lexeme, .is, .not, .null] (.not (.isNull x))
  | like (x y : Operand) : ReadsTest [x.lexeme, .like, y.lexeme] (.like x y)
  | notLike (x y : Operand) : ReadsTest [x.lexeme, .not, .like, y.lexeme] (.not (.like x y))
  | among (x : Operand) (items : List Operand) (h : items ≠ []) :
      ReadsTest (x.lexeme :: .among :: .opening :: (listLexemes items ++ [.closing]))
        (.among x items)
  | notAmong (x : Operand) (items : List Operand) (h : items ≠ []) :
      ReadsTest (x.lexeme :: .not :: .among :: .opening :: (listLexemes items ++ [.closing]))
        (.not (.among x items))

/-- How tightly a condition holds together, the tightest last. -/
inductive Level where
  | disjunction | conjunction | negation | operand
deriving DecidableEq, Repr

/-- What lexemes read as at a level. -/
inductive Reads : Level → List Lexeme → Condition → Prop where
  | test {ls : List Lexeme} {c : Condition} (h : ReadsTest ls c) : Reads .operand ls c
  | parentheses {ls : List Lexeme} {c : Condition} (h : Reads .disjunction ls c) :
      Reads .operand (.opening :: (ls ++ [.closing])) c
  | ofOperand {ls : List Lexeme} {c : Condition} (h : Reads .operand ls c) : Reads .negation ls c
  | not {ls : List Lexeme} {c : Condition} (h : Reads .negation ls c) :
      Reads .negation (.not :: ls) (.not c)
  | ofNegation {ls : List Lexeme} {c : Condition} (h : Reads .negation ls c) :
      Reads .conjunction ls c
  | and {ls ls' : List Lexeme} {c d : Condition} (h : Reads .negation ls c)
      (h' : Reads .conjunction ls' d) : Reads .conjunction (ls ++ .and :: ls') (.and c d)
  | ofConjunction {ls : List Lexeme} {c : Condition} (h : Reads .conjunction ls c) :
      Reads .disjunction ls c
  | or {ls ls' : List Lexeme} {c d : Condition} (h : Reads .conjunction ls c)
      (h' : Reads .disjunction ls' d) : Reads .disjunction (ls ++ .or :: ls') (.or c d)

/-! ## The reader -/

/-- A list of operands up to the parenthesis that closes it. -/
def readItems : List Lexeme → Option (List Operand × List Lexeme)
  | l :: .closing :: rest => l.operand?.map fun x => ([x], rest)
  | l :: .comma :: rest => do
      let x ← l.operand?
      let (xs, rest) ← readItems rest
      return (x :: xs, rest)
  | _ => none

/-- What a test says of the operand before it. -/
def readTail (x : Operand) : List Lexeme → Option (Condition × List Lexeme)
  | .compare op :: l :: rest => l.operand?.map fun y => (.compare op x y, rest)
  | .is :: .null :: rest => some (.isNull x, rest)
  | .is :: .not :: .null :: rest => some (.not (.isNull x), rest)
  | .like :: l :: rest => l.operand?.map fun y => (.like x y, rest)
  | .not :: .like :: l :: rest => l.operand?.map fun y => (.not (.like x y), rest)
  | .among :: .opening :: rest => (readItems rest).map fun p => (.among x p.1, p.2)
  | .not :: .among :: .opening :: rest => (readItems rest).map fun p => (.not (.among x p.1), p.2)
  | _ => none

/-- A test at the front. -/
def readTest : List Lexeme → Option (Condition × List Lexeme)
  | [] => none
  | l :: rest => l.operand?.bind fun x => readTail x rest

/-- The longest condition of a level at the front, and what follows it. Readers call each other at
most four times before they take a lexeme, which bounds the fuel. -/
def readAt : Nat → Level → List Lexeme → Option (Condition × List Lexeme)
  | 0, _, _ => none
  | fuel + 1, .operand, ls =>
      match ls with
      | .opening :: rest =>
          match readAt fuel .disjunction rest with
          | some (c, .closing :: rest) => some (c, rest)
          | _ => none
      | ls => readTest ls
  | fuel + 1, .negation, ls =>
      match ls with
      | .not :: rest => (readAt fuel .negation rest).map fun p => (.not p.1, p.2)
      | ls => readAt fuel .operand ls
  | fuel + 1, .conjunction, ls =>
      match readAt fuel .negation ls with
      | some (c, .and :: rest) => (readAt fuel .conjunction rest).map fun p => (.and c p.1, p.2)
      | result => result
  | fuel + 1, .disjunction, ls =>
      match readAt fuel .conjunction ls with
      | some (c, .or :: rest) => (readAt fuel .disjunction rest).map fun p => (.or c p.1, p.2)
      | result => result

/-- The condition that a list of lexemes is, from its first to its last. -/
def readCondition? (ls : List Lexeme) : Option Condition :=
  match readAt (4 * ls.length + 4) .disjunction ls with
  | some (c, []) => some c
  | _ => none

/-! ## The reader follows the grammar -/

theorem readItems_sound {ls rest : List Lexeme} {xs : List Operand}
    (h : readItems ls = some (xs, rest)) :
    xs ≠ [] ∧ ls = listLexemes xs ++ .closing :: rest := by
  fun_induction readItems ls generalizing xs with
  | case1 l rest' =>
      obtain ⟨x, hx, heq⟩ := Option.map_eq_some_iff.mp h
      cases heq
      simp [listLexemes, Lexeme.eq_lexeme_of_operand? hx]
  | case2 l ls ih =>
      obtain ⟨x, hx, h⟩ := Option.bind_eq_some_iff.mp h
      obtain ⟨⟨ys, rest'⟩, hys, heq⟩ := Option.bind_eq_some_iff.mp h
      cases heq
      obtain ⟨hne, hls⟩ := ih hys
      cases ys with
      | nil => exact absurd rfl hne
      | cons y ys => simp [listLexemes, Lexeme.eq_lexeme_of_operand? hx, hls]
  | case3 => cases h

theorem readItems_complete {xs : List Operand} (h : xs ≠ []) (rest : List Lexeme) :
    readItems (listLexemes xs ++ .closing :: rest) = some (xs, rest) := by
  induction xs with
  | nil => exact absurd rfl h
  | cons x xs ih =>
      cases xs with
      | nil => simp [listLexemes, readItems]
      | cons y ys =>
          have ih := ih (by simp)
          simp only [listLexemes, List.cons_append] at ih ⊢
          simp [readItems, ih]

theorem readTest_complete {ls : List Lexeme} {c : Condition} (h : ReadsTest ls c)
    (rest : List Lexeme) : readTest (ls ++ rest) = some (c, rest) := by
  cases h with
  | among x items hne => simp [readTest, readTail, readItems_complete hne]
  | notAmong x items hne => simp [readTest, readTail, readItems_complete hne]
  | _ => simp [readTest, readTail]

theorem readTail_sound {x : Operand} {ls rest : List Lexeme} {c : Condition}
    (h : readTail x ls = some (c, rest)) :
    ∃ front, ls = front ++ rest ∧ ReadsTest (x.lexeme :: front) c := by
  unfold readTail at h
  split at h
  next op l ls' =>
      obtain ⟨y, hy, heq⟩ := Option.map_eq_some_iff.mp h
      cases heq
      exact ⟨[.compare op, l], by simp, Lexeme.eq_lexeme_of_operand? hy ▸ .compare op x y⟩
  next ls' => cases h; exact ⟨[.is, .null], by simp, .isNull x⟩
  next ls' => cases h; exact ⟨[.is, .not, .null], by simp, .isNotNull x⟩
  next l ls' =>
      obtain ⟨y, hy, heq⟩ := Option.map_eq_some_iff.mp h
      cases heq
      exact ⟨[.like, l], by simp, Lexeme.eq_lexeme_of_operand? hy ▸ .like x y⟩
  next l ls' =>
      obtain ⟨y, hy, heq⟩ := Option.map_eq_some_iff.mp h
      cases heq
      exact ⟨[.not, .like, l], by simp, Lexeme.eq_lexeme_of_operand? hy ▸ .notLike x y⟩
  next ls' =>
      obtain ⟨⟨items, rest'⟩, hitems, heq⟩ := Option.map_eq_some_iff.mp h
      cases heq
      obtain ⟨hne, rfl⟩ := readItems_sound hitems
      exact ⟨_, by simp, .among x items hne⟩
  next ls' =>
      obtain ⟨⟨items, rest'⟩, hitems, heq⟩ := Option.map_eq_some_iff.mp h
      cases heq
      obtain ⟨hne, rfl⟩ := readItems_sound hitems
      exact ⟨_, by simp, .notAmong x items hne⟩
  next => cases h

theorem readTest_sound {ls rest : List Lexeme} {c : Condition}
    (h : readTest ls = some (c, rest)) : ∃ front, ls = front ++ rest ∧ ReadsTest front c := by
  cases ls with
  | nil => cases h
  | cons l ls =>
      obtain ⟨x, hx, h⟩ := Option.bind_eq_some_iff.mp h
      obtain ⟨front, rfl, hfront⟩ := readTail_sound h
      rw [Lexeme.eq_lexeme_of_operand? hx]
      exact ⟨_, by simp, hfront⟩

/-- What the reader takes reads, at the level it was asked for. -/
theorem readAt_sound {fuel : Nat} {level : Level} {ls rest : List Lexeme} {c : Condition}
    (h : readAt fuel level ls = some (c, rest)) :
    ∃ front, ls = front ++ rest ∧ Reads level front c := by
  induction fuel generalizing level ls rest c with
  | zero => simp [readAt] at h
  | succ fuel ih =>
      cases level with
      | operand =>
          simp only [readAt] at h
          split at h
          next ls' =>
              split at h
              next c' rest' hread =>
                  cases h
                  obtain ⟨front, rfl, hfront⟩ := ih hread
                  exact ⟨_, by simp, .parentheses hfront⟩
              next => cases h
          next =>
              obtain ⟨front, rfl, hfront⟩ := readTest_sound h
              exact ⟨front, rfl, .test hfront⟩
      | negation =>
          simp only [readAt] at h
          split at h
          next ls' =>
              obtain ⟨⟨c', rest'⟩, hread, heq⟩ := Option.map_eq_some_iff.mp h
              cases heq
              obtain ⟨front, rfl, hfront⟩ := ih hread
              exact ⟨_, by simp, .not hfront⟩
          next =>
              obtain ⟨front, rfl, hfront⟩ := ih h
              exact ⟨front, rfl, .ofOperand hfront⟩
      | conjunction =>
          simp only [readAt] at h
          split at h
          next c' rest' hread =>
              obtain ⟨front, rfl, hfront⟩ := ih hread
              obtain ⟨⟨d, rest''⟩, hread', heq⟩ := Option.map_eq_some_iff.mp h
              cases heq
              obtain ⟨front', rfl, hfront'⟩ := ih hread'
              exact ⟨_, by simp, .and hfront hfront'⟩
          next =>
              obtain ⟨front, rfl, hfront⟩ := ih h
              exact ⟨front, rfl, .ofNegation hfront⟩
      | disjunction =>
          simp only [readAt] at h
          split at h
          next c' rest' hread =>
              obtain ⟨front, rfl, hfront⟩ := ih hread
              obtain ⟨⟨d, rest''⟩, hread', heq⟩ := Option.map_eq_some_iff.mp h
              cases heq
              obtain ⟨front', rfl, hfront'⟩ := ih hread'
              exact ⟨_, by simp, .or hfront hfront'⟩
          next =>
              obtain ⟨front, rfl, hfront⟩ := ih h
              exact ⟨front, rfl, .ofConjunction hfront⟩

/-- What may follow a condition of a level without being taken for a part of it. -/
def Stops : Level → List Lexeme → Prop
  | .operand, _ => True
  | .negation, _ => True
  | .conjunction, rest => rest.head? ≠ some .and
  | .disjunction, rest => rest.head? ≠ some .and ∧ rest.head? ≠ some .or

/-- How many readers are called for a level before a lexeme is taken. -/
def Level.depth : Level → Nat
  | .operand => 1
  | .negation => 2
  | .conjunction => 3
  | .disjunction => 4

theorem ReadsTest.exists_cons {ls : List Lexeme} {c : Condition} (h : ReadsTest ls c) :
    ∃ x ls', ls = Operand.lexeme x :: ls' := by
  cases h <;> exact ⟨_, _, rfl⟩

/-- A condition is written with one lexeme at least. -/
theorem Reads.ne_nil {level : Level} {ls : List Lexeme} {c : Condition} (h : Reads level ls c) :
    ls ≠ [] := by
  induction h with
  | test h =>
      obtain ⟨x, rest, rfl⟩ := h.exists_cons
      exact List.cons_ne_nil _ _
  | parentheses => exact List.cons_ne_nil _ _
  | ofOperand _ ih => exact ih
  | not => exact List.cons_ne_nil _ _
  | ofNegation _ ih => exact ih
  | and => simp
  | ofConjunction _ ih => exact ih
  | or => simp

/-- An operand does not begin with `NOT`. -/
theorem Reads.head_ne_not {ls : List Lexeme} {c : Condition} (h : Reads .operand ls c)
    (rest : List Lexeme) : ∀ ls', ls ++ rest ≠ .not :: ls' := by
  intro ls'
  cases h with
  | test h =>
      obtain ⟨x, front, rfl⟩ := h.exists_cons
      cases x <;> simp [Operand.lexeme]
  | parentheses h => simp

/-- The reader takes what reads, up to a lexeme that does not belong to it. -/
theorem readAt_complete {level : Level} {ls : List Lexeme} {c : Condition}
    (h : Reads level ls c) :
    ∀ (rest : List Lexeme), Stops level rest → ∀ (fuel : Nat), 4 * ls.length + level.depth ≤ fuel →
      readAt fuel level (ls ++ rest) = some (c, rest) := by
  induction h with
  | @test ls c h =>
      intro rest _ fuel hfuel
      obtain ⟨fuel, rfl⟩ : ∃ n, fuel = n + 1 := ⟨fuel - 1, by simp [Level.depth] at hfuel; omega⟩
      have htest := readTest_complete h rest
      obtain ⟨x, front, rfl⟩ := h.exists_cons
      -- a test begins with an operand, so it is not taken for a parenthesis
      cases x <;> simpa [readAt, Operand.lexeme] using htest
  | @parentheses ls c h ih =>
      intro rest _ fuel hfuel
      simp only [List.length_cons, List.length_append, List.length_nil, Level.depth] at hfuel
      obtain ⟨fuel, rfl⟩ : ∃ n, fuel = n + 1 := ⟨fuel - 1, by omega⟩
      have inner := ih (.closing :: rest) (by simp [Stops]) fuel
        (by simp only [Level.depth]; omega)
      simp [readAt, inner]
  | @ofOperand ls c h ih =>
      intro rest hstop fuel hfuel
      simp only [Level.depth] at hfuel
      obtain ⟨fuel, rfl⟩ : ∃ n, fuel = n + 1 := ⟨fuel - 1, by omega⟩
      have inner := ih rest trivial fuel (by simp only [Level.depth]; omega)
      rw [readAt]
      · exact inner
      · exact h.head_ne_not rest
  | @not ls c h ih =>
      intro rest hstop fuel hfuel
      simp only [List.length_cons, Level.depth] at hfuel
      obtain ⟨fuel, rfl⟩ : ∃ n, fuel = n + 1 := ⟨fuel - 1, by omega⟩
      have inner := ih rest trivial fuel (by simp only [Level.depth]; omega)
      simp [readAt, inner]
  | @ofNegation ls c h ih =>
      intro rest hstop fuel hfuel
      simp only [Level.depth] at hfuel
      obtain ⟨fuel, rfl⟩ : ∃ n, fuel = n + 1 := ⟨fuel - 1, by omega⟩
      have inner := ih rest trivial fuel (by simp only [Level.depth]; omega)
      rw [readAt, inner]
      cases rest with
      | nil => rfl
      -- the reader goes on only with the connective of its level
      | cons l rest => cases l <;> first | rfl | simp [Stops] at hstop
  | @and ls ls' c d h h' ih ih' =>
      intro rest hstop fuel hfuel
      simp only [List.length_append, List.length_cons, Level.depth] at hfuel
      obtain ⟨fuel, rfl⟩ : ∃ n, fuel = n + 1 := ⟨fuel - 1, by omega⟩
      -- the left side stops at the connective, the right side where the whole does
      have left := ih (.and :: (ls' ++ rest)) trivial fuel
        (by simp only [Level.depth]; omega)
      have right := ih' rest hstop fuel (by simp only [Level.depth]; omega)
      rw [List.append_assoc, List.cons_append, readAt, left]
      simp [right]
  | @ofConjunction ls c h ih =>
      intro rest hstop fuel hfuel
      simp only [Level.depth] at hfuel
      obtain ⟨fuel, rfl⟩ : ∃ n, fuel = n + 1 := ⟨fuel - 1, by omega⟩
      have inner := ih rest hstop.1 fuel (by simp only [Level.depth]; omega)
      rw [readAt, inner]
      cases rest with
      | nil => rfl
      | cons l rest => cases l <;> first | rfl | simp [Stops] at hstop
  | @or ls ls' c d h h' ih ih' =>
      intro rest hstop fuel hfuel
      simp only [List.length_append, List.length_cons, Level.depth] at hfuel
      obtain ⟨fuel, rfl⟩ : ∃ n, fuel = n + 1 := ⟨fuel - 1, by omega⟩
      have left := ih (.or :: (ls' ++ rest)) (by simp [Stops]) fuel
        (by simp only [Level.depth]; omega)
      have right := ih' rest hstop fuel (by simp only [Level.depth]; omega)
      rw [List.append_assoc, List.cons_append, readAt, left]
      simp [right]

/-- **The reader finds exactly the reading of the grammar.** -/
theorem readCondition?_eq_some_iff {ls : List Lexeme} {c : Condition} :
    readCondition? ls = some c ↔ Reads .disjunction ls c := by
  constructor
  · intro h
    unfold readCondition? at h
    split at h
    next c' hread =>
        cases h
        obtain ⟨front, hls, hfront⟩ := readAt_sound hread
        rw [List.append_nil] at hls
        exact hls ▸ hfront
    next => cases h
  · intro h
    have hread := readAt_complete h [] (by simp [Stops]) (4 * ls.length + 4)
      (by simp [Level.depth])
    rw [List.append_nil] at hread
    simp [readCondition?, hread]

/-- A list of lexemes has one reading at most. -/
theorem Reads.unique {ls : List Lexeme} {c d : Condition} (h : Reads .disjunction ls c)
    (h' : Reads .disjunction ls d) : c = d := by
  rw [← readCondition?_eq_some_iff] at h h'
  exact Option.some.inj (h.symm.trans h')

theorem Reads.unique_operand {ls : List Lexeme} {c d : Condition} (h : Reads .operand ls c)
    (h' : Reads .operand ls d) : c = d :=
  Reads.unique (.ofConjunction (.ofNegation (.ofOperand h)))
    (.ofConjunction (.ofNegation (.ofOperand h')))

/-- The condition that a fragment is read as. -/
def Fragment.condition? (f : Fragment) : Option Condition := readCondition? f.lexemes

theorem Fragment.condition?_eq_some_iff {f : Fragment} {c : Condition} :
    f.condition? = some c ↔ Reads .disjunction f.lexemes c := readCondition?_eq_some_iff

example : (Fragment.ofText "1 = 0 OR NOT 1 = 1 AND (1 = 0)").condition? =
    some (.or (.compare .equal (.number 1) (.number 0))
      (.and (.not (.compare .equal (.number 1) (.number 1)))
        (.compare .equal (.number 1) (.number 0)))) := by decide

end GraphStore
