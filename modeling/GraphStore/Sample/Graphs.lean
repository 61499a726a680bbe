import GraphStore.Persist.Session
import GraphStore.Persist.Script
import GraphStore.Record.NumberedSupply
import GraphStore.Sample.Catalog

/-!
# Sample graphs

New records of the catalog and a scripted store to write them to.
-/

set_option autoImplicit false

namespace GraphStore.Sample

def newBook : Record := book.prototype.withValue "title" (.varchar (some "Ode"))

/-- An author with a new book. -/
def newAuthor : Record :=
  (author.prototype.withValue "name" (.varchar (some "Keats"))).withItems "books" [newBook]

/-- The author is stored by now, the book is not. -/
def storedAuthor : Record := newAuthor.withValue "id" (.int32 (some 7))

/-- A new book whose author is new, too, and has another book. -/
def authoredBook : Record := newBook.withItems "author" [newAuthor]

def newTag : Record :=
  Conformance.Enrollment.courseTag.prototype.withValue "label" (.varchar (some "lenses"))

/-- A course with a new tag, whose key is that of the course and its label. -/
def newCourse : Record :=
  (Conformance.Enrollment.course.prototype.withValue "code" (.varchar (some "OPT"))).withItems
    "tags" [newTag]

/-- The catalog on a connection that follows a script. -/
def store : Store Script := ⟨model none none, Script.connection .sqlite⟩

/-- A session about a record, with the replies to come. -/
def session (subject : Record) (replies : List (Option (List ScriptItem))) :
    Session Script Record :=
  { subject, link := { replies }, supply := NumberedSupply.supply }

/-- A session about a new book, whose row will be refused. -/
def refused : Session Script Record :=
  session newBook [some [.error (.of (.reported "disk full"))]]

/-- Peers belong to a main record by its code, which may be empty, and have main records of their
own. -/
def peersByCode : Store Script where
  model := model
    (some {
      table := "mains"
      columns := [generatedColumn "id", column "code"]
      relations := [oneToMany "peers" "Peer" "code" "main_code"] })
    (some {
      table := "peers"
      columns := [keyColumn "main_code", keyColumn "code"]
      relations := [oneToMany "mains" "Main" "code" "code"] })
  connection := Script.connection .sqlite

/-- A stored peer with a new record below it. -/
def storedPeer : Record :=
  ((peerPrototype.withValue "main_code" (.varchar (some "X"))).withValue "code"
    (.varchar (some "c"))).withItems "mains" [mainPrototype]

/-- A stored record without a code, with the peer. -/
def codeless : Record :=
  (mainPrototype.withValue "id" (.int32 (some 1))).withItems "peers" [storedPeer]

end GraphStore.Sample
