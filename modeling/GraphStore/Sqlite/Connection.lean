import GraphStore.Persist.Connection
import GraphStore.Sqlite.Location

/-!
# The connection

A link as a connection: queries are prepared, bound and carried out, and what goes wrong is
reported. Only a zero byte in a text is refused without a report.
-/

set_option autoImplicit false

namespace GraphStore.Sqlite

open Text (utf8)

/-- Refuses a text with a zero byte in it. -/
def refuseNul (text : String) : Except Error Unit :=
  match (utf8 text).findIdx? (· == 0) with
  | some n => fail (.nulByte n)
  | none => .ok ()

/-- What is reported of an error. -/
def reports (e : Error) : List LogEntry :=
  match e.cause with
  | .nulByte _ => []
  | _ => [.error e.message]

/-! ## Preparing and binding -/

/-- A statement that is ready to be carried out, with its parameters by name. -/
structure Prepared where
  action : Action
  params : List (String × Nat)
  /-- The highest place of a parameter. -/
  places : Nat

/-- White space of ASCII. -/
def isAsciiBlank (c : Char) : Bool :=
  c == ' ' || c == '\t' || c == '\n' || c == '\x0c' || c == '\r'

/-- The one statement of a text, made ready. -/
def prepare (d : Database) (sql : String) : Except Error Prepared :=
  framed (.preparing sql) do
    refuseNul sql
    let ready : Except Fault (Option (Prepared × List Char)) := do
      match ← readCommand d sql with
      | none => return none
      | some r =>
          return some ({ action := ← r.command.action d, params := r.params, places := r.places },
            r.rest)
    match ready with
    | .error f => fail (.reported f.message)
    | .ok none => fail .noStatement
    | .ok (some (p, rest)) => if rest.all isAsciiBlank then return p else fail .severalStatements

/-- The bytes of a text or a blob that are bound: as many as are counted, by an integer of 32 bits.
A negative count is refused. -/
def countedBytes (bytes : List UInt8) : Except Fault (List UInt8) :=
  let count := Int32.ofNat bytes.length
  if count < 0 then .error .tooBig else .ok (bytes.take count.toNatClampNeg)

/-- The cell that a value is bound to. -/
def Cell.bound (v : Value) : Except Fault Cell :=
  match ofValue v with
  | text bytes => (countedBytes bytes).map text
  | blob bytes => (countedBytes bytes).map blob
  | c => .ok c

/-- The cells of the parameters. A parameter is bound by its name after a colon, and of several
values for it the last counts. -/
def Prepared.bind (p : Prepared) (params : List Param) : Except Error (List Cell) :=
  params.foldlM (fun (cells : List Cell) (param : Param) => do
    let written := ":" ++ param.name
    refuseNul written
    match p.params.lookup written with
    | none => fail (.unknownParameter param.name)
    | some place =>
        match Cell.bound param.value with
        | .ok c => return cells.set (place - 1) c
        | .error f => framed (.binding param.name) (fail (.reported f.message)))
    (List.replicate p.places .null)

/-! ## Running -/

namespace Link

/-- Runs a query: its rows or, where it has no columns, the number of rows changed. A fault comes
after the rows that were there before it. -/
def run (q : Query) (l : Link) : Answer Link Yield :=
  let ready : Except Error (Prepared × List Cell) := do
    let p ← prepare l.world.database q.sql
    return (p, ← p.bind q.params)
  match ready with
  | .error e => { value := [.error e], journal := reports e, state := l }
  | .ok (p, cells) =>
      let labels := p.action.columns
      let (rows, next) := l.perform cells p.action
      let yielded : Yield := rows.items.map fun cells => .ok (.row ⟨labels, cells.map Cell.value⟩)
      match rows.fault with
      | some f =>
          let e := Error.of (.reported f.message)
          { value := yielded ++ [.error e], journal := reports e, state := next }
      | none =>
          let count := next.world.totalChanges - l.world.totalChanges
          { value := if labels.isEmpty then [.ok (.affected (.ofNat count))] else yielded
            state := next }

/-- Runs a statement of which only matters whether it succeeds. -/
def command (sql : String) (l : Link) : Answer Link (Except Error Unit) :=
  let a := l.run { sql }
  { value := a.value.affected.map fun _ => (), journal := a.journal, state := a.state }

end Link

/-- The connection over links. -/
def connection : Connection Link where
  dialect := .sqlite
  begin := Link.command Dialect.sqlite.beginText
  commit := Link.command Dialect.sqlite.commitText
  rollback := Link.command Dialect.sqlite.rollbackText
  run := Link.run

/-! ## Opening -/

/-- What all connection urls begin with. -/
def scheme : String := "sqlite://"

/-- Opens the database of a url. -/
def connect (url : String) : Except Error Link :=
  match scheme.toList.isPrefixOf? url.toList with
  | none => fail (.unexpectedScheme scheme)
  | some path => framed (.opening url) do
      let location := if "file:".toList.isPrefixOf path then path else "file:".toList ++ path
      refuseNul (String.ofList location)
      match (Location.read (location.drop 5)).bind Location.connect with
      | .ok link => return link
      | .error f => fail (.reported f.message)

end GraphStore.Sqlite
