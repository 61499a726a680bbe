import GraphStore.Predicate.Basic
import GraphStore.Sql.Fragment
import GraphStore.Sqlite.Operator
import Mathlib.Data.List.Basic

/-!
# Conditions on rows

What the text of a filter says once it has been read, and whether it is true of a row. Truth has
three values (`Sqlite.Truth`): a comparison with a null is unknown, `NOT` leaves the unknown as it
is, and `AND` and `OR` are known as soon as one side decides. A row satisfies a condition when
the condition is true of it, not when it is unknown.

What databases disagree about, the order of values of different kinds and the matching of
patterns, is a parameter (`Semantics`).
-/

set_option autoImplicit false

namespace GraphStore

/-! ## Laws of truth -/

namespace Sqlite.Truth

@[simp] theorem not_not (t : Truth) : t.not.not = t := by
  rcases t with _ | _ | _ <;> rfl

theorem not_and (t u : Truth) : (t.and u).not = t.not.or u.not := by
  rcases t with _ | _ | _ <;> rcases u with _ | _ | _ <;> rfl

theorem not_or (t u : Truth) : (t.or u).not = t.not.and u.not := by
  rcases t with _ | _ | _ <;> rcases u with _ | _ | _ <;> rfl

@[simp] theorem and_true (t : Truth) : t.and (some true) = t := by
  rcases t with _ | _ | _ <;> rfl

@[simp] theorem or_false (t : Truth) : t.or (some false) = t := by
  rcases t with _ | _ | _ <;> rfl

theorem or_beq_true (t u : Truth) :
    (t.or u == some true) = (t == some true || u == some true) := by
  rcases t with _ | _ | _ <;> rcases u with _ | _ | _ <;> rfl

theorem and_beq_true (t u : Truth) :
    (t.and u == some true) = (t == some true && u == some true) := by
  rcases t with _ | _ | _ <;> rcases u with _ | _ | _ <;> rfl

/-- All of several conditions: true when there are none. -/
def all (ts : List Truth) : Truth := ts.foldr Truth.and (some true)

/-- One of several conditions at least: false when there are none. -/
def any (ts : List Truth) : Truth := ts.foldr Truth.or (some false)

@[simp] theorem all_nil : all [] = some true := rfl

@[simp] theorem any_nil : any [] = some false := rfl

@[simp] theorem all_cons (t : Truth) (ts : List Truth) : all (t :: ts) = t.and (all ts) := rfl

@[simp] theorem any_cons (t : Truth) (ts : List Truth) : any (t :: ts) = t.or (any ts) := rfl

theorem not_beq_true (t : Truth) : (t.not == some true) = (t == some false) := by
  rcases t with _ | _ | _ <;> rfl

theorem all_beq_true (ts : List Truth) : (all ts == some true) = ts.all (· == some true) := by
  induction ts with
  | nil => rfl
  | cons t ts ih => rw [all_cons, and_beq_true, ih, List.all_cons]

/-- A conjunction is false as soon as one condition is, whatever is known of the others. -/
theorem all_eq_false {ts : List Truth} : all ts = some false ↔ some false ∈ ts := by
  have and_eq_false (t u : Truth) : t.and u = some false ↔ t = some false ∨ u = some false := by
    rcases t with _ | _ | _ <;> rcases u with _ | _ | _ <;> decide
  induction ts with
  | nil => simp
  | cons t ts ih =>
      rw [all_cons, and_eq_false, List.mem_cons, eq_comm (b := t)]
      exact or_congr_right ih

/-- The connective over a list of truths. -/
def connect : LogicalOp → List Truth → Truth
  | .and, ts => all ts
  | .or, ts => any ts

/-- De Morgan's law for lists. -/
theorem not_connect (op : LogicalOp) (ts : List Truth) :
    (connect op ts).not = connect op.dual (ts.map Truth.not) := by
  induction ts with
  | nil => cases op <;> rfl
  | cons t ts ih =>
      cases op with
      | and =>
          simp only [connect, LogicalOp.dual, List.map_cons, all_cons, any_cons] at ih ⊢
          rw [not_and, ih]
      | or =>
          simp only [connect, LogicalOp.dual, List.map_cons, all_cons, any_cons] at ih ⊢
          rw [not_or, ih]

end Sqlite.Truth

open Sqlite (Truth)

/-! ## Tests of values -/

/-- Whether a comparison holds of two values that compare as given. -/
def CompareOp.holds (op : CompareOp) (o : Ordering) : Bool :=
  match op with
  | .equal => o == .eq
  | .notEqual => o != .eq
  | .less => o == .lt
  | .lessEqual => o != .gt
  | .greater => o == .gt
  | .greaterEqual => o != .lt

theorem CompareOp.holds_negate (op : CompareOp) (o : Ordering) :
    op.negate.holds o = !op.holds o := by
  cases op <;> cases o <;> rfl

/-- The kinds of values that are told apart by their content alone. Integers of both widths are
of one kind. -/
def Value.kind : Value → Nat
  | .null => 0
  | .boolean _ => 1
  | .int32 _ => 2
  | .int64 _ => 2
  | .float64 _ => 3
  | .varchar _ => 4
  | .blob _ => 5
  | .timestamp _ => 6
  | .uuid _ => 7

/-- What a database makes of values: a total order on them, in which values of one kind are tied
only when they have the same content, and the matching of patterns. Nulls are never compared. -/
structure Semantics where
  compare : Value → Value → Ordering
  total : Std.TransCmp compare
  same_of_tied : ∀ {v w : Value}, v.isNull = false → w.isNull = false → v.kind = w.kind →
    compare v w = .eq → v = w ∨ v.same w = true
  /-- Whether a value matches a pattern. -/
  matchesPattern : Value → Value → Bool

namespace Semantics

variable (s : Semantics)

/-- A comparison, unknown when one side is null. -/
def test (op : CompareOp) (v w : Value) : Truth :=
  if v.isNull || w.isNull then none else some (op.holds (s.compare v w))

/-- The match with a pattern, unknown when one side is null. -/
def like (v pattern : Value) : Truth :=
  if v.isNull || pattern.isNull then none else some (s.matchesPattern v pattern)

/-- Membership in a list: equality with one of the items. -/
def member (v : Value) (ws : List Value) : Truth := Truth.any (ws.map (s.test .equal v))

theorem test_negate (op : CompareOp) (v w : Value) :
    s.test op.negate v w = (s.test op v w).not := by
  unfold test
  split
  · rfl
  · rw [CompareOp.holds_negate]; rfl

theorem compare_self (v : Value) : s.compare v v = .eq :=
  have := s.total
  Std.ReflCmp.compare_self

theorem test_equal_self {v : Value} (h : v.isNull = false) : s.test .equal v v = some true := by
  simp [test, h, s.compare_self, CompareOp.holds]

/-- Two values are found equal when neither is null and they are tied. -/
theorem test_equal_eq_true {v w : Value} :
    s.test .equal v w = some true ↔
      v.isNull = false ∧ w.isNull = false ∧ s.compare v w = .eq := by
  unfold test
  cases v.isNull <;> cases w.isNull <;> simp [CompareOp.holds]

theorem test_equal_comm {v w : Value} (h : s.test .equal v w = some true) :
    s.test .equal w v = some true := by
  have := s.total
  rw [test_equal_eq_true] at h ⊢
  exact ⟨h.2.1, h.1, Std.OrientedCmp.eq_symm h.2.2⟩

theorem test_equal_trans {u v w : Value} (h : s.test .equal u v = some true)
    (h' : s.test .equal v w = some true) : s.test .equal u w = some true := by
  have := s.total
  rw [test_equal_eq_true] at h h' ⊢
  exact ⟨h.1, h'.2.1, Std.TransCmp.eq_trans h.2.2 h'.2.2⟩

end Semantics

/-! ## A database -/

/-- The kind of a value and its content, as numbers. -/
def Value.sortKey : Value → List Int
  | .boolean (some b) => [1, if b then 1 else 0]
  | .int32 (some n) => [2, n.toInt]
  | .int64 (some n) => [2, n.toInt]
  | .float64 (some x) => [3, x.bits.toNat]
  | .varchar (some s) => 4 :: s.toList.map fun c => (c.val.toNat : Int)
  | .blob (some bytes) => 5 :: bytes.map fun b => (b.toNat : Int)
  | .timestamp (some t) => [6, t.year, t.month, t.day, t.hour, t.minute, t.second, t.nanosecond]
  | .uuid (some u) => 7 :: u.bytes.map fun b => (b.toNat : Int)
  | _ => []

/-- Values with the same key are the same, but for the width of integers. -/
theorem Value.eq_or_number_of_sortKey {v w : Value} (hv : v.isNull = false)
    (hw : w.isNull = false) (h : v.sortKey = w.sortKey) :
    v = w ∨ ∃ (m : Int32) (n : Int64), m.toInt = n.toInt ∧
      ((v = .int32 (some m) ∧ w = .int64 (some n)) ∨
        (v = .int64 (some n) ∧ w = .int32 (some m))) := by
  have bytes : Function.Injective fun b : UInt8 => (b.toNat : Int) := fun b c hbc =>
    UInt8.toNat_inj.mp (Int.ofNat.inj hbc)
  have chars : Function.Injective fun c : Char => (c.val.toNat : Int) := fun c d hcd =>
    Char.ext (UInt32.toNat_inj.mp (Int.ofNat.inj hcd))
  -- values of different kinds have different keys; what is left is content of one kind
  rcases v with _ | (_ | a) | (_ | a) | (_ | a) | (_ | a) | (_ | a) | (_ | a) |
      (_ | a) | (_ | a) <;>
    first | (cases hv; done) | skip
  all_goals
    rcases w with _ | (_ | b) | (_ | b) | (_ | b) | (_ | b) | (_ | b) | (_ | b) |
        (_ | b) | (_ | b) <;>
      first | (cases hw; done) | (simp [sortKey] at h; done) | skip
  all_goals simp only [sortKey, List.cons.injEq, and_true, true_and] at h
  case boolean.some.boolean.some =>
      left
      cases a <;> cases b <;> first | rfl | cases h
  case int32.some.int32.some => exact .inl (by rw [Int32.toInt_inj.mp h])
  case int32.some.int64.some => exact .inr ⟨a, b, h, .inl ⟨rfl, rfl⟩⟩
  case int64.some.int32.some => exact .inr ⟨b, a, h.symm, .inr ⟨rfl, rfl⟩⟩
  case int64.some.int64.some => exact .inl (by rw [Int64.toInt_inj.mp h])
  case float64.some.float64.some =>
      obtain ⟨a⟩ := a
      obtain ⟨b⟩ := b
      have : a = b := UInt64.toNat_inj.mp (Int.ofNat.inj h)
      exact .inl (by rw [this])
  case varchar.some.varchar.some =>
      exact .inl (by rw [String.ext_iff.mpr (List.map_injective_iff.mpr chars h)])
  case blob.some.blob.some => exact .inl (by rw [List.map_injective_iff.mpr bytes h])
  case timestamp.some.timestamp.some =>
      obtain ⟨year, month, day, hour, minute, second, nanosecond⟩ := h
      left
      cases a
      cases b
      simp only [timestamp.injEq, Option.some.injEq, Timestamp.mk.injEq]
      exact ⟨year, Int.ofNat.inj month, Int.ofNat.inj day, Int.ofNat.inj hour,
        Int.ofNat.inj minute, Int.ofNat.inj second, Int.ofNat.inj nanosecond⟩
  case uuid.some.uuid.some =>
      obtain ⟨a⟩ := a
      obtain ⟨b⟩ := b
      have : a = b := List.map_injective_iff.mpr bytes h
      simp [this]

theorem Value.eq_or_same_of_sortKey {v w : Value} (hv : v.isNull = false) (hw : w.isNull = false)
    (h : v.sortKey = w.sortKey) : v = w ∨ v.same w = true := by
  rcases eq_or_number_of_sortKey hv hw h with rfl | ⟨m, n, hmn, ⟨rfl, rfl⟩ | ⟨rfl, rfl⟩⟩
  · exact .inl rfl
  · exact .inr (by simp [same, hmn])
  · exact .inr (by simp [same, hmn])

/-- A database that orders values by their kind and then by their content. -/
def Semantics.byContent : Semantics where
  compare := compareOn Value.sortKey
  total := inferInstance
  same_of_tied hv hw _ tied :=
    Value.eq_or_same_of_sortKey hv hw (Std.LawfulEqCmp.eq_of_compare tied)
  matchesPattern
    | .varchar (some s), .varchar (some pattern) => Sqlite.likeMatches none pattern.toList s.toList
    | _, _ => false

/-! ## Conditions -/

/-- What a test is about: a column, a parameter or a number written out. -/
inductive Operand where
  | column (c : ColumnToken)
  | param (p : Param)
  | number (n : Nat)
deriving DecidableEq, Repr

/-- A condition as it is read. The negated forms of the tests are negations of the tests. -/
inductive Condition where
  | compare (op : CompareOp) (x y : Operand)
  | isNull (x : Operand)
  | like (x pattern : Operand)
  | among (x : Operand) (items : List Operand)
  | not (c : Condition)
  | and (c d : Condition)
  | or (c d : Condition)
deriving DecidableEq, Repr

/-- The value of every column that a condition can mention. -/
abbrev Valuation := ColumnToken → Value

def Operand.value (row : Valuation) : Operand → Value
  | column c => row c
  | param p => p.value
  | number n => .int64 (some (.ofNat n))

/-- The truth of a condition of a row. -/
def Condition.truth (s : Semantics) (row : Valuation) : Condition → Truth
  | compare op x y => s.test op (x.value row) (y.value row)
  | isNull x => some (x.value row).isNull
  | like x pattern => s.like (x.value row) (pattern.value row)
  | among x items => s.member (x.value row) (items.map (·.value row))
  | not c => (c.truth s row).not
  | and c d => (c.truth s row).and (d.truth s row)
  | or c d => (c.truth s row).or (d.truth s row)

end GraphStore
