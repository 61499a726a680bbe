import GraphStore.Sqlite.Affinity
import GraphStore.Sqlite.Expr
import GraphStore.Sqlite.Fault

/-!
# Operators on cells

Arithmetic, comparison and the matching of patterns. A null operand makes most results null.
-/

set_option autoImplicit false

namespace GraphStore.Sqlite

namespace ArithmeticOp

/-- The result of an operation on integers, when it fits. -/
def onIntegers? (op : ArithmeticOp) (a b : Int) : Option Cell :=
  match op with
  | add => Cell.ofInt? (a + b)
  | subtract => Cell.ofInt? (a - b)
  | multiply => Cell.ofInt? (a * b)
  | divide => Cell.ofInt? (a.tdiv b)
  | _ => none

/-- The result of an operation on real numbers. -/
def onReals (op : ArithmeticOp) (x y : Binary64) : Cell :=
  let result (z : Float) : Cell := .ofReal (Binary64.ofFloat z)
  match op with
  | add => result (x.toFloat + y.toFloat)
  | subtract => result (x.toFloat - y.toFloat)
  | multiply => result (x.toFloat * y.toFloat)
  | divide => if y.isZero then .null else result (x.toFloat / y.toFloat)
  | _ => .null

/-- Bits moved to the left, or to the right for a negative amount; the sign stays. -/
def shift (n : Int64) (amount : Int) : Int64 :=
  if 0 ≤ amount then
    if 64 ≤ amount then 0 else n <<< Int64.ofInt amount
  else if amount ≤ -64 then (if n < 0 then -1 else 0) else n >>> Int64.ofInt (-amount)

/-- The remainder of integers, with the sign of the first. -/
def remainderOf (a b : Cell) : Cell :=
  let m := a.toInteger.toInt
  let n := b.toInteger.toInt
  if n = 0 then .null
  else
    let r := m.tmod n
    match a, b with
    | .real _, _ => .real (Binary64.ofInt r)
    | _, .real _ => .real (Binary64.ofInt r)
    | _, _ => .integer (Int64.ofInt r)

/-- The result of an operation. Integers give an integer unless it does not fit. -/
def apply (op : ArithmeticOp) (a b : Cell) : Cell :=
  if a.isNull || b.isNull then .null
  else
    match op with
    | bitAnd => .integer (a.toInteger &&& b.toInteger)
    | bitOr => .integer (a.toInteger ||| b.toInteger)
    | shiftLeft => .integer (shift a.toInteger b.toInteger.toInt)
    | shiftRight => .integer (shift a.toInteger (-b.toInteger.toInt))
    | remainder => remainderOf a.number b.number
    | op =>
        match a.number, b.number with
        | .integer m, .integer n =>
            if op = divide ∧ n = 0 then .null
            else (op.onIntegers? m.toInt n.toInt).getD
              (op.onReals (Binary64.ofInt m.toInt) (Binary64.ofInt n.toInt))
        | x, y => op.onReals x.toReal y.toReal

example : apply divide (.integer 7) (.integer (-2)) = .integer (-3) := by decide +kernel
example : apply divide (.integer 7) (.integer 0) = .null := by decide +kernel
example : apply remainder (.integer (-7)) (.integer 3) = .integer (-1) := by decide +kernel

end ArithmeticOp

namespace ComparisonOp

def holds (op : ComparisonOp) (o : Ordering) : Bool :=
  match op with
  | equal => o == .eq
  | notEqual => o != .eq
  | less => o == .lt
  | lessEqual => o != .gt
  | greater => o == .gt
  | greaterEqual => o != .lt

/-- The truth of a comparison, unknown when a side is null. -/
def apply (op : ComparisonOp) (a : Option Affinity) (c : Collation) (x y : Cell) : Truth :=
  if x.isNull || y.isNull then none
  else some (op.holds ((Affinity.compared a x).order c (Affinity.compared a y)))

end ComparisonOp

/-! ## Patterns -/

/-- A character without regard to the case of ASCII letters. -/
def foldCase (c : Char) : Char := if c < '\x80' then c.toLower else c

/-- The ends of a text, from the whole to the empty one. -/
def suffixes : List Char → List (List Char)
  | [] => [[]]
  | c :: s => (c :: s) :: suffixes s

/-- Whether a text matches a pattern in which `%` stands for any text and `_` for one character.
The character after `escape` stands for itself. -/
def likeMatches (escape : Option Char) : List Char → List Char → Bool
  | [], s => s.isEmpty
  | p :: ps, s =>
      if escape = some p then
        match ps, s with
        | q :: ps, c :: s => foldCase q == foldCase c && likeMatches escape ps s
        | _, _ => false
      else if p = '%' then (suffixes s).any (likeMatches escape ps)
      else
        match s with
        | [] => false
        | c :: s => (p = '_' || foldCase p == foldCase c) && likeMatches escape ps s

/-- A set in brackets: whether a character is in it, and what follows it. -/
def takeSet? (c : Char) : List Char → Bool → Option (Bool × List Char)
  | ']' :: rest, found => some (found, rest)
  | a :: '-' :: b :: rest, found =>
      if b = ']' then takeSet? c ('-' :: b :: rest) (found || a == c)
      else takeSet? c rest (found || (a ≤ c && c ≤ b))
  | a :: rest, found => takeSet? c rest (found || a == c)
  | [], _ => none
termination_by s => s.length

/-- A set with what may stand first in it: a caret for its complement, and a closing bracket. -/
def matchSet? (c : Char) (ps : List Char) : Option (Bool × List Char) :=
  let (negated, ps) := if ps.head? == some '^' then (true, ps.drop 1) else (false, ps)
  let (found, ps) :=
    if ps.head? == some ']' then (c == ']', ps.drop 1) else (false, ps)
  (takeSet? c ps found).map fun (found, rest) => (found != negated, rest)

/-- Whether a text matches a pattern in which `*` stands for any text, `?` for one character and
brackets for one character of a set; of at most `fuel` steps. -/
def globMatches : Nat → List Char → List Char → Bool
  | 0, _, _ => false
  | _ + 1, [], s => s.isEmpty
  | fuel + 1, '*' :: ps, [] => globMatches fuel ps []
  | fuel + 1, '*' :: ps, c :: s => globMatches fuel ps (c :: s) || globMatches fuel ('*' :: ps) s
  | _ + 1, _ :: _, [] => false
  | fuel + 1, '?' :: ps, _ :: s => globMatches fuel ps s
  | fuel + 1, '[' :: ps, c :: s =>
      match matchSet? c ps with
      | some (true, ps) => globMatches fuel ps s
      | _ => false
  | fuel + 1, p :: ps, c :: s => p == c && globMatches fuel ps s

/-- The longest pattern that is tried, in bytes. -/
def maxPattern : Nat := 50000

namespace PatternOp

/-- The truth of a match of the text `s` with the pattern `p`. -/
def apply (op : PatternOp) (s p : Cell) (escape : Option Cell) : Except Fault Truth :=
  if maxPattern < p.bytes.length then .error .patternTooComplex
  else
    let chars (c : Cell) : List Char := (Text.readUtf8 c.bytes).toList
    match escape with
    | none =>
        if s.isNull || p.isNull then .ok none
        else
          match op with
          | like => .ok (some (likeMatches none (chars p) (chars s)))
          | glob =>
              .ok (some (globMatches ((chars p).length + (chars s).length + 1) (chars p) (chars s)))
    | some e =>
        if e.isNull then .ok none
        else
          match chars e with
          | [c] =>
              if s.isNull || p.isNull then .ok none
              else .ok (some (likeMatches (some c) (chars p) (chars s)))
          | _ => .error .escapeLength

end PatternOp

example : likeMatches none "a%_c".toList "ABBC".toList = true := by decide +kernel
example : likeMatches (some '\\') "a\\%".toList "ab".toList = false := by decide +kernel
example : globMatches 9 "[a-c]*".toList "bx".toList = true := by decide +kernel

end GraphStore.Sqlite
