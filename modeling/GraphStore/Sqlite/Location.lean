import GraphStore.Sqlite.Link
import GraphStore.Text.Hex

/-!
# Locations of databases

A location is a path with options, `path?name=value&name=value`, after the scheme `file:`. Bytes
can be written as `%` and two hexadecimal digits, and what follows `#` does not count. The path,
or an option, may ask for a database in memory; one that is to be found in a directory is not
there.
-/

set_option autoImplicit false

namespace GraphStore.Sqlite

open Text (utf8 readUtf8)

/-- What can go wrong with a location. -/
inductive LocationFault where
  | authority (host : String)
  | noCacheMode (mode : String)
  | noAccessMode (mode : String)
  | accessNotAllowed (mode : String)
  | noFileSystem (name : String)
  /-- The name at fault is no text. -/
  | unreadable
  | unreachable
deriving DecidableEq, Repr

def LocationFault.message : LocationFault → String
  | authority host => "invalid uri authority: " ++ host
  | noCacheMode mode => "no such cache mode: " ++ mode
  | noAccessMode mode => "no such access mode: " ++ mode
  | accessNotAllowed mode => "access mode not allowed: " ++ mode
  | noFileSystem name => "no such vfs: " ++ name
  | unreadable => "Unknown error (the error message was not a valid C string)"
  | unreachable => "unable to open database file"

/-- A path and the options, in order, as the bytes that were meant. -/
structure Location where
  path : List UInt8
  options : List (List UInt8 × List UInt8)
deriving DecidableEq, Repr

namespace Location

/-- The bytes that a part of a location stands for. Nothing counts after a zero byte. -/
def decoded : List Char → List UInt8
  | '%' :: h :: l :: rest =>
      match Text.hexValue? h, Text.hexValue? l with
      | some h, some l => if h = 0 ∧ l = 0 then [] else UInt8.ofNat (16 * h + l) :: decoded rest
      | _, _ => utf8 "%" ++ decoded (h :: l :: rest)
  | c :: rest => utf8 (String.singleton c) ++ decoded rest
  | [] => []

/-- The parts of a text around a character. -/
def split (mark : Char) (s : List Char) : List Char × List Char :=
  let (before, after) := s.span (· != mark)
  (before, after.drop 1)

/-- The items of a text between a character. -/
def splitAll (mark : Char) : List Char → List (List Char)
  | [] => [[]]
  | c :: rest =>
      if c = mark then [] :: splitAll mark rest
      else
        match splitAll mark rest with
        | [] => [[c]]
        | item :: items => (c :: item) :: items

/-- Reads what follows the scheme. A host in front of the path can only be this one. -/
def read (s : List Char) : Except LocationFault Location := do
  let s ←
    match s with
    | '/' :: '/' :: rest =>
        let (host, path) := rest.span (· != '/')
        let host := String.ofList host
        if host.isEmpty || host == "localhost" then pure path else throw (.authority host)
    | s => pure s
  let (path, query) := split '?' (split '#' s).1
  let options := (splitAll '&' query).map fun item =>
    let (name, value) := split '=' item
    (decoded name, decoded value)
  return { path := decoded path, options := options.filter (!·.1.isEmpty) }

end Location

/-! ## Opening -/

/-- What is to be done with a database. -/
inductive Access where
  | read | write | create | memory
deriving DecidableEq, Repr

namespace Access

def named? (name : List UInt8) : Option Access :=
  [(utf8 "ro", read), (utf8 "rw", write), (utf8 "rwc", create), (utf8 "memory", memory)].lookup name

/-- Whether an access that was asked for allows a later one. -/
def allows : Access → Access → Bool
  | memory, _ => true
  | _, memory => true
  | create, _ => true
  | write, a => a != create
  | read, a => a == read

end Access

/-- What the options ask for. -/
structure Opening where
  access : Access := .create
  fileSystem : List UInt8 := utf8 "unix"

namespace Opening

/-- A fault that names something. -/
def named (f : String → LocationFault) (name : List UInt8) : LocationFault :=
  let text := readUtf8 name
  if utf8 text == name then f text else .unreadable

def withOption (o : Opening) (option : List UInt8 × List UInt8) : Except LocationFault Opening :=
  let (name, value) := option
  if name == utf8 "vfs" then .ok { o with fileSystem := value }
  else if name == utf8 "cache" then
    if value == utf8 "shared" || value == utf8 "private" then .ok o
    else .error (named .noCacheMode value)
  else if name == utf8 "mode" then
    match Access.named? value with
    | none => .error (named .noAccessMode value)
    | some a =>
        if o.access.allows a then .ok { o with access := a }
        else .error (named .accessNotAllowed value)
  else .ok o

def fileSystems : List String := ["unix", "unix-none", "unix-dotfile", "unix-excl", "memdb"]

end Opening

namespace Location

/-- Whether a file of the path could be made where the program runs. -/
def isLocal (path : List UInt8) : Bool :=
  !path.contains '/'.toUInt8 && path != utf8 "." && path != utf8 ".."

/-- Opens a database, which is new. -/
def connect (l : Location) : Except LocationFault Link := do
  let o ← l.options.foldlM Opening.withOption {}
  if !Opening.fileSystems.any (utf8 · == o.fileSystem) then
    throw (Opening.named .noFileSystem o.fileSystem)
  let inMemory := o.access = .memory || l.path.isEmpty || l.path == utf8 ":memory:" ||
    o.fileSystem == utf8 "memdb"
  if !inMemory && !(o.access = .create && isLocal l.path) then throw .unreachable
  return { readOnly := o.access = .read }

end Location

end GraphStore.Sqlite
