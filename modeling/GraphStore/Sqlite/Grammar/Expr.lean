import GraphStore.Sqlite.Affinity
import GraphStore.Sqlite.Reader

/-!
# Reading expressions and selections

Operators are read by level: an expression of a level ends before an operator of a lower one. The
levels are, from the weakest, `OR`, `AND`, `NOT`, equality and membership, order, bits, sums,
products, concatenation, collation.
-/

set_option autoImplicit false

namespace GraphStore.Sqlite.Reader

/-! ## Literals -/

/-- The value of a hexadecimal number, in 64 bits. -/
def hexLiteral? (digits : List Char) : Option Cell :=
  let digits := digits.dropWhile (· == '0')
  if digits.length ≤ 16 then
    some (.integer (Int64.ofInt (digits.foldl (fun n c => n * 16 + (Text.hexValue? c).getD 0) 0)))
  else none

/-- The value of a number literal: an integer when it is written and fits as one. -/
def numberLiteral (written : List Char) : Except Fault Cell :=
  match written.filter (· != '_') with
  | '0' :: x :: digits =>
      if x == 'x' || x == 'X' then
        (hexLiteral? digits).elim (.error (.unsupported "A number of more than 64 bits")) .ok
      else .ok (leadingNumber (Text.utf8 (String.ofList ('0' :: x :: digits))))
  | ds => .ok (leadingNumber (Text.utf8 (String.ofList ds)))

/-- The bytes of a blob literal. -/
def blobLiteral (written : List Char) : Cell :=
  .blob ((Text.readBytes? (written.drop 2 |>.take (written.length - 3))).getD [])

/-- The number one beyond the largest integer, which is an integer when it is negated. -/
def leastMagnitude : String := "9223372036854775808"

/-! ## Operators -/

/-- The operators between two operands that are symbols, with their levels. -/
def symbolOperators : List (String × Nat × BinaryOp) :=
  [("=", 4, .comparison .equal), ("==", 4, .comparison .equal), ("<>", 4, .comparison .notEqual),
    ("!=", 4, .comparison .notEqual), ("<", 5, .comparison .less), ("<=", 5, .comparison .lessEqual),
    (">", 5, .comparison .greater), (">=", 5, .comparison .greaterEqual),
    ("&", 7, .arithmetic .bitAnd), ("|", 7, .arithmetic .bitOr), ("<<", 7, .arithmetic .shiftLeft),
    (">>", 7, .arithmetic .shiftRight), ("+", 8, .arithmetic .add), ("-", 8, .arithmetic .subtract),
    ("*", 9, .arithmetic .multiply), ("/", 9, .arithmetic .divide),
    ("%", 9, .arithmetic .remainder), ("||", 10, .concat)]

/-- An operator between two operands, when one is next. -/
def binaryOperator? (l : Lexeme) : Option (Nat × BinaryOp) :=
  if l.kind = .symbol then symbolOperators.lookup l.text
  else if l.isKeyword "or" then some (1, .or)
  else if l.isKeyword "and" then some (2, .and)
  else none

def patternOperator? (l : Lexeme) : Option PatternOp :=
  if l.isKeyword "like" then some .like else if l.isKeyword "glob" then some .glob else none

/-- Whether a selection begins here. -/
def atSelection : Reader Bool := do
  let l ← peek
  return l.isKeyword "select" || l.isKeyword "values"

def orderDirection : Reader Bool := do
  if ← tryWord "desc" then return true
  let _ ← tryWord "asc"
  return false

def nullsOrder : Reader (Option Bool) := do
  if !(← tryWord "nulls") then return none
  if ← tryWord "first" then return some true
  word "last"
  return some false

/-- The join that follows: whether it keeps rows without a partner. -/
def joinOperator : Reader (Option Bool) := do
  if ← trySymbol "," then return some false
  if ← tryWord "join" then return some false
  if (← tryWord "inner") || (← tryWord "cross") then
    word "join"
    return some false
  if ← tryWord "left" then
    let _ ← tryWord "outer"
    word "join"
    return some true
  let l ← peek
  if joinWords.contains l.keyword then throw (.unsupported ("A " ++ l.text ++ " join"))
  return none

def compoundOperator : Reader (Option CompoundOp) := do
  if ← tryWord "union" then return some (if ← tryWord "all" then .unionAll else .union)
  if ← tryWord "intersect" then return some .intersect
  if ← tryWord "except" then return some .except
  return none

/-- The name after an expression or a table. -/
def label : Reader (Option String) := do
  if ← tryWord "as" then return some (← name)
  match (← peek).label? with
  | some a => skip; return some a
  | none => return none

/-- A type, as it is written; it may be absent. -/
def typeName (fuel : Nat) : Reader String := do
  let first := (← peek).label?
  if first.isNone then return ""
  let ((), text) ← withText (words fuel)
  return text
where
  words : Nat → Reader Unit
    | 0 => throw .expressionTooDeep
    | fuel + 1 => do
        match (← peek).label? with
        | some _ =>
            if (← peek).isKeyword "generated" then return ()
            skip
            words fuel
        | none =>
            if (← peek).isSymbol "(" then
              skip
              bound
              if ← trySymbol "," then bound
              symbol ")"
  bound : Reader Unit := do
    if !(← trySymbol "-") then let _ ← trySymbol "+"
    lexeme fun l => if l.kind = .number then some () else none

/-- An expression that is not nested too deeply. -/
def checked (read : Reader Expr) : Reader Expr := do
  let e ← read
  if maxHeight < e.height then throw .expressionTooDeep
  return e

/-! ## Expressions and selections -/

mutual

/-- An expression whose operators are of a level or above. -/
def readExpr : Nat → Nat → Reader Expr
  | 0, _ => throw .expressionTooDeep
  | fuel + 1, level => do
      let e ← readOperand fuel
      readOperators fuel level e

/-- The operators that follow an operand, with their other operands. -/
def readOperators : Nat → Nat → Expr → Reader Expr
  | 0, _, _ => throw .expressionTooDeep
  | fuel + 1, level, e => do
      let l ← peek
      if let some (own, op) := binaryOperator? l then
        if own < level then return e
        skip
        return ← readOperators fuel level (.binary op e (← readExpr fuel (own + 1)))
      if l.isSymbol "->" || l.isSymbol "->>" then throw (.unsupported "A path into JSON")
      if l.isKeyword "collate" then
        if 11 < level then return e
        skip
        return ← readOperators fuel level (.collate e (← lexeme Lexeme.label?))
      if l.isKeyword "not" then
        let second ← peekSecond
        let follows := second.isKeyword "null" || second.isKeyword "in" ||
          second.isKeyword "between" || (patternOperator? second).isSome
        if !follows || 3 < level then return e
        skip
        if ← tryWord "null" then
          return ← readOperators fuel level (.unary .not (.isNull e))
        match ← readMembership fuel e with
        | some e => return ← readOperators fuel level (.unary .not e)
        | none => unexpected
      if 4 < level then return e
      if ← tryWord "isnull" then return ← readOperators fuel level (.isNull e)
      if ← tryWord "notnull" then return ← readOperators fuel level (.unary .not (.isNull e))
      if ← tryWord "is" then
        let negated ← tryWord "not"
        let distinct ← tryWords ["distinct", "from"]
        let op : BinaryOp := if negated == distinct then .is else .isNot
        return ← readOperators fuel level (.binary op e (← readExpr fuel 5))
      match ← readMembership fuel e with
      | some e => readOperators fuel level e
      | none => return e

/-- `IN`, `BETWEEN` or a pattern after an operand, when one of them is next. -/
def readMembership : Nat → Expr → Reader (Option Expr)
  | 0, _ => throw .expressionTooDeep
  | fuel + 1, e => do
      if ← tryWord "in" then
        if !(← trySymbol "(") then
          let table ← name
          let (schema, table) ←
            if ← trySymbol "." then pure (some table, ← name) else pure (none, table)
          return some (.inSelection e (.mk (.select false [.all]
            [.mk false (.table schema table) none none] none [] none) [] [] none none))
        if ← trySymbol ")" then return some (.inList e [])
        if ← atSelection then
          let s ← readSelection fuel
          symbol ")"
          return some (.inSelection e s)
        let es ← commaList (readExpr fuel 0) fuel
        symbol ")"
        return some (.inList e es)
      if ← tryWord "between" then
        let low ← readExpr fuel 5
        word "and"
        return some (.between e low (← readExpr fuel 5))
      if let some op := patternOperator? (← peek) then
        skip
        let p ← readExpr fuel 5
        let escape ← if ← tryWord "escape" then some <$> readExpr fuel 7 else pure none
        return some (.pattern op e p escape)
      return none

/-- An operand: a literal, a name, a call, or an expression with something in front or around. -/
def readOperand : Nat → Reader Expr
  | 0 => throw .expressionTooDeep
  | fuel + 1 => do
      let l ← peek
      match l.kind with
      | .number => skip; return .constant (← numberLiteral l.written)
      | .blob => skip; return .constant (blobLiteral l.written)
      | .parameter =>
          -- a number sign before a digit would mean a register of the engine
          if l.written.head? == some '#' && (l.written[1]?.any Char.isDigit) then unexpected
          skip
          return .param (← paramPlace l.text)
      | _ =>
        if ← trySymbol "(" then
          let e ← if ← atSelection then .scalar <$> readSelection fuel else readExpr fuel 0
          if (← peek).isSymbol "," then throw .misusedRow
          symbol ")"
          return e
        if ← trySymbol "-" then
          let next ← peek
          if next.kind = .number ∧ next.text = leastMagnitude then
            skip
            return .constant (.integer Int64.minValue)
          return .unary .negate (← readOperand fuel)
        if ← trySymbol "+" then return .unary .plus (← readOperand fuel)
        if ← trySymbol "~" then return .unary .invert (← readOperand fuel)
        if ← tryWord "null" then return .constant .null
        if ← tryWord "not" then return .unary .not (← readExpr fuel 3)
        if ← tryWord "exists" then return .existsIn (← parenthesized (readSelection fuel))
        if ← tryWord "case" then
          let base ←
            if (← peek).isKeyword "when" then pure none else some <$> readExpr fuel 0
          let branches ← readBranches fuel
          let otherwise ← if ← tryWord "else" then some <$> readExpr fuel 0 else pure none
          word "end"
          return .choice base branches otherwise
        let second ← peekSecond
        if l.isKeyword "cast" && second.isSymbol "(" then
          skip
          return ← parenthesized do
            let e ← readExpr fuel 0
            word "as"
            return .cast e (← typeName fuel)
        if l.kind = .string && !second.isSymbol "." then
          skip
          return .constant (.ofText l.unquoted)
        let n ← lexeme fun l => if l.kind = .string then some l.unquoted else l.columnName?
        if ← trySymbol "(" then return ← readCall fuel n
        if !(← trySymbol ".") then return .name [] n (l.written.head? == some '"')
        let last ← peek
        let m ← name
        if !(← trySymbol ".") then return .name [n] m (last.written.head? == some '"')
        let last ← peek
        return .name [n, m] (← name) (last.written.head? == some '"')

/-- The branches of a choice. -/
def readBranches : Nat → Reader (List (Expr × Expr))
  | 0 => throw .expressionTooDeep
  | fuel + 1 => do
      word "when"
      let condition ← readExpr fuel 0
      word "then"
      let result ← readExpr fuel 0
      if (← peek).isKeyword "when" then return (condition, result) :: (← readBranches fuel)
      return [(condition, result)]

/-- A call, after its opening parenthesis. -/
def readCall : Nat → String → Reader Expr
  | 0, _ => throw .expressionTooDeep
  | fuel + 1, function => do
      let call ←
        if ← trySymbol "*" then pure (.call function false none)
        else if (← peek).isSymbol ")" then pure (.call function false (some []))
        else do
          let distinct ← tryWord "distinct"
          if !distinct then let _ ← tryWord "all"
          pure (.call function distinct (some (← commaList (readExpr fuel 0) fuel)))
      symbol ")"
      let next ← peek
      if next.isKeyword "over" || (next.isKeyword "filter" && (← peekSecond).isSymbol "(") then
        throw (.unsupported "A window of rows")
      return call

/-- Cores with the operators between them, an order and a limit. -/
def readSelection : Nat → Reader Selection
  | 0 => throw .expressionTooDeep
  | fuel + 1 => do
      let first ← readCore fuel
      let rest ← readCompound fuel
      let orderBy ←
        if ← tryWords ["order", "by"] then commaList (readOrderTerm fuel) fuel else pure []
      let mut limit := none
      let mut offset := none
      if ← tryWord "limit" then
        let e ← readExpr fuel 0
        limit := some e
        if ← tryWord "offset" then offset := some (← readExpr fuel 0)
        else if ← trySymbol "," then
          offset := some e
          limit := some (← readExpr fuel 0)
      if let some op ← compoundOperator then
        throw (.clauseOrder (if limit.isSome then "LIMIT" else "ORDER BY") op.text)
      return .mk first rest orderBy limit offset

/-- The cores after the first. -/
def readCompound : Nat → Reader (List (CompoundOp × Core))
  | 0 => throw .expressionTooDeep
  | fuel + 1 => do
      match ← compoundOperator with
      | none => return []
      | some op =>
          let core ← readCore fuel
          return (op, core) :: (← readCompound fuel)

def readCore : Nat → Reader Core
  | 0 => throw .expressionTooDeep
  | fuel + 1 => do
      if ← tryWord "values" then
        let rows ← commaList (parenthesized (commaList (readExpr fuel 0) fuel)) fuel
        if rows.any (·.length != (rows.headD []).length) then throw .unevenValues
        return .values rows
      word "select"
      let distinct ← tryWord "distinct"
      if !distinct then let _ ← tryWord "all"
      let outputs ← commaList (readOutput fuel) fuel
      let sources ← if ← tryWord "from" then readSources fuel false else pure []
      let filter ← if ← tryWord "where" then some <$> checked (readExpr fuel 0) else pure none
      let groupBy ←
        if ← tryWords ["group", "by"] then commaList (readExpr fuel 0) fuel else pure []
      let having ← if ← tryWord "having" then some <$> checked (readExpr fuel 0) else pure none
      return .select distinct outputs sources filter groupBy having

/-- A term of the list of a select. -/
def readOutput : Nat → Reader Output
  | 0 => throw .expressionTooDeep
  | fuel + 1 => do
      if ← trySymbol "*" then return .all
      let rest := (← get).rest.drop 1
      if (← peek).name?.isSome && (rest.headD ⟨.stop, [], []⟩).isSymbol "." &&
          ((rest.drop 1).headD ⟨.stop, [], []⟩).isSymbol "*" then
        let table ← name
        symbol "."
        symbol "*"
        return .allOf table
      let (e, written) ← withText (checked (readExpr fuel 0))
      return .expr e (← label) written

/-- A source and those joined to it. -/
def readSources : Nat → Bool → Reader (List Source)
  | 0, _ => throw .expressionTooDeep
  | fuel + 1, left => do
      let item ←
        if ← trySymbol "(" then
          if !(← atSelection) then throw (.unsupported "A join in parentheses")
          let s ← readSelection fuel
          symbol ")"
          pure (.selection s)
        else do
          let n ← name
          if ← trySymbol "." then pure (.table (some n) (← name)) else pure (.table none n)
      if (← peek).isSymbol "(" then throw (.unsupported "A table made by a function")
      let a ← label
      let on ← if ← tryWord "on" then some <$> checked (readExpr fuel 0) else pure none
      if (← peek).isKeyword "using" then throw (.unsupported "A join by names")
      let source := Source.mk left item a on
      match ← joinOperator with
      | some left => return source :: (← readSources fuel left)
      | none => return [source]

def readOrderTerm : Nat → Reader OrderTerm
  | 0 => throw .expressionTooDeep
  | fuel + 1 => do
      let e ← readExpr fuel 0
      let descending ← orderDirection
      return .mk e descending (← nullsOrder)

end

def expr : Reader Expr := do checked (readExpr (← fuel) 0)

def selection : Reader Selection := do readSelection (← fuel)

def outputs : Reader (List Output) := do
  let n ← fuel
  commaList (readOutput n) n

end GraphStore.Sqlite.Reader
