import GraphStore.Model.Derivation

/-!
# The journal

Lines written for whoever operates the program. Most are written by the operations on a
connection. A type that cannot be mapped and a dialect that is not known are reported each time
they are asked for, so what they write follows from the error alone (`Error.journal`).
-/

set_option autoImplicit false

namespace GraphStore

inductive LogLevel where
  | error | warn | info | debug | trace
deriving DecidableEq, Repr

structure LogEntry where
  level : LogLevel
  text : String
deriving DecidableEq, Repr

namespace LogEntry

def error (text : String) : LogEntry := ⟨.error, text⟩

def debug (text : String) : LogEntry := ⟨.debug, text⟩

end LogEntry

namespace Error

/-- The frames from the mapping of a type inwards. -/
def mappingFrames : List Frame → List Frame
  | [] => []
  | .mapping t :: rest => .mapping t :: rest
  | _ :: rest => mappingFrames rest

/-- What was written to the journal when the error arose: a failed mapping with its cause, or a
dialect that is not known. -/
def journal (e : Error) : List LogEntry :=
  match mappingFrames e.frames, e.cause with
  | [], .unsupportedDialect n => [.error (Cause.unsupportedDialect n).message]
  | [], _ => []
  | frames, cause => [.error (Error.message ⟨frames, cause⟩)]

end Error

/-- What a computation wrote to the journal: nothing unless it failed. -/
def journalOf {α : Type} : Except Error α → List LogEntry
  | .ok _ => []
  | .error e => e.journal

end GraphStore
