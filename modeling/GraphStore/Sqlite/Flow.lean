import GraphStore.Sqlite.Fault

/-!
# Flows

A flow yields items one after another, and may end with a fault instead of running dry. What takes
only some of the items, as a limit does, never meets a fault that lies behind them. A flow of flows
is run through in order, which is how the sources of a join are nested.
-/

set_option autoImplicit false

namespace GraphStore.Sqlite

/-- Items in order, and the fault that came after them, if one did. -/
structure Flow (α : Type) where
  items : List α
  fault : Option Fault := none
deriving Inhabited

namespace Flow

variable {α β : Type}

def empty : Flow α := ⟨[], none⟩

def ofList (items : List α) : Flow α := ⟨items, none⟩

/-- The single item of a computation. -/
def ofExcept : Except Fault α → Flow α
  | .ok a => ⟨[a], none⟩
  | .error f => ⟨[], some f⟩

/-- All items of a computation that gives them at once. -/
def ofAll : Except Fault (List α) → Flow α
  | .ok items => ofList items
  | .error f => ⟨[], some f⟩

def map (f : α → β) (x : Flow α) : Flow β := ⟨x.items.map f, x.fault⟩

/-- One flow and, unless it ends with a fault, the other. -/
def append (x y : Flow α) : Flow α :=
  match x.fault with
  | some f => ⟨x.items, some f⟩
  | none => ⟨x.items ++ y.items, y.fault⟩

/-- The flows of the items, one after another up to the first fault, and then `last`. -/
def concat (f : α → Flow β) (last : Option Fault) : List α → Flow β
  | [] => ⟨[], last⟩
  | a :: rest =>
      match f a with
      | ⟨items, some e⟩ => ⟨items, some e⟩
      | ⟨items, none⟩ =>
          let others := concat f last rest
          ⟨items ++ others.items, others.fault⟩

instance : Monad Flow where
  pure a := ⟨[a], none⟩
  bind x f := concat f x.fault x.items

instance : MonadLift (Except Fault) Flow := ⟨ofExcept⟩

/-- All items, or the fault that keeps them from being all. -/
def all (x : Flow α) : Except Fault (List α) :=
  match x.fault with
  | none => .ok x.items
  | some f => .error f

/-- The first item, if there is one; what comes after it is not looked at. -/
def first? (x : Flow α) : Except Fault (Option α) :=
  match x.items, x.fault with
  | a :: _, _ => .ok (some a)
  | [], none => .ok none
  | [], some f => .error f

/-- The items on which a condition holds. -/
def filter (p : α → Except Fault Bool) (x : Flow α) : Flow α := do
  let a ← x
  if ← (p a : Except Fault Bool) then pure a else empty

def drop (n : Nat) (x : Flow α) : Flow α := ⟨x.items.drop n, x.fault⟩

/-- The first `n` items; a fault after them is not met. -/
def take (n : Nat) (x : Flow α) : Flow α :=
  if n ≤ x.items.length then ⟨x.items.take n, none⟩ else x

/-- The items changed as a whole, if there is no fault. -/
def gather (f : List α → List β) (x : Flow α) : Flow β := ofAll (x.all.map f)

@[simp] theorem all_ofList (items : List α) : (ofList items).all = .ok items := rfl

@[simp] theorem all_ofAll (x : Except Fault (List α)) : (ofAll x).all = x := by
  cases x <;> rfl

end Flow

end GraphStore.Sqlite
