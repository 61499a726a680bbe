import GraphStore.Persist.Delete
import GraphStore.Persist.Insert
import GraphStore.Persist.Select
import GraphStore.Persist.Update

/-!
# Trials

A trial tries out a store: it works in a session and states what it expects. It stops at the first
expectation that is not met, with the words for it.
-/

set_option autoImplicit false

namespace GraphStore.Conformance

/-- Work that stops with words. -/
abbrev Trial (σ : Type) := EStateM String (Session σ Unit)

namespace Trial

variable {σ α : Type}

/-- Work that is expected to succeed. -/
def expect (words : String) (work : Work σ Unit α) : Trial σ α := fun s =>
  match work s with
  | .ok a s => .ok a s
  | .error _ s => .error words s

/-- Work that is expected to fail. -/
def expectError (words : String) (work : Work σ Unit α) : Trial σ Error := fun s =>
  match work s with
  | .ok _ s => .error words s
  | .error e s => .ok e s

/-- Something that is expected to be there. -/
def present (words : String) : Option α → Trial σ α
  | some a => return a
  | none => throw words

/-- A condition that is expected to hold. -/
def demand (holds : Bool) (words : String := "assertion failed") : Trial σ Unit :=
  if holds then return () else throw words

/-- Two things that are expected to be equal. -/
def demandEqual [BEq α] (found expected : α)
    (words : String := "assertion \x60left == right\x60 failed\n  left") : Trial σ Unit :=
  demand (found == expected) words

/-- A random identifier. -/
def randomUuid : Trial σ Uuid := modifyGet fun s =>
  let (u, supply) := s.supply.takeUuid
  (u, { s with supply })

/-! ## Records -/

/-- Work on a record that is expected to succeed: the record as it is afterwards. -/
def write (words : String) (r : Record) (work : Work σ Record Unit) : Trial σ Record := fun s =>
  match work (s.on r) with
  | .ok _ t => .ok t.subject (t.on ())
  | .error _ t => .error words (t.on ())

/-- Work on a record that is expected to fail. -/
def writeError (words : String) (r : Record) (work : Work σ Record Unit) : Trial σ Error :=
  fun s =>
    match work (s.on r) with
    | .ok _ t => .error words (t.on ())
    | .error e t => .ok e (t.on ())

/-- Work on every record of a list in turn. -/
def writeAll (words : String) (rs : List Record) (work : Work σ Record Unit) :
    Trial σ (List Record) :=
  rs.mapM fun r => write words r work

end Trial

/-! ## Writing records down -/

def text (s : String) : Value := .varchar (some s)

def int (n : Int32) : Value := .int32 (some n)

/-- A new record with some fields, each with a value of its type, and some related records. -/
def newRecord (t : EntityType) (fields : List (String × Value))
    (related : List (String × List Record)) : Record :=
  related.foldl (fun r (p, items) => r.withItems p items)
    (fields.foldl (fun r (p, v) => r.withValue p v) t.prototype)

/-- A field that is known to be there. -/
def value (r : Record) (property : String) : Value := (r.field? property).getD .null

end GraphStore.Conformance
