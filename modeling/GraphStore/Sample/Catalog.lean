import GraphStore.Conformance.Enrollment
import GraphStore.Conformance.Library
import GraphStore.Conformance.Transactions

/-!
# A catalog of entity types

Small types for every feature of a declaration, some of which cannot be mapped, together with the
types of the conformance suite.
-/

set_option autoImplicit false

namespace GraphStore.Sample

/-! ## A bookshop -/

def author : EntityType where
  prototype := .mk "sql::Author"
    [initialField "id" (.optional .int32), initialField "name" .text,
      initialField "born" (.optional .int32)]
    [collectionSlot "books" "sql::Book"]
  declaration :=
    { table := "authors"
      columns := [generatedColumn "id", column "name", column "born"]
      relations := [oneToMany "books" "sql::Book" "id" "author_id"] }

def book : EntityType where
  prototype := .mk "sql::Book"
    [initialField "id" .uuid, initialField "title" .text,
      initialField "author_id" (.optional .int32), initialField "deleted" .boolean]
    [referenceSlot "author" "sql::Author"]
  declaration :=
    { table := "books"
      columns := [generatedColumn "id", column "title", column "author_id",
        { column "deleted" with softDelete := true }]
      relations := [(manyToOne "author" "sql::Author" "author_id" "id").orNone] }

def person : EntityType where
  prototype := .mk "sql::Person"
    [initialField "id" (.optional .int32), initialField "name" .text] []
  declaration := { table := "people", columns := [generatedColumn "id", column "name"] }

def loan : EntityType where
  prototype := .mk "sql::Loan"
    [initialField "id" (.optional .int32), initialField "lender_id" .int32,
      initialField "borrower_id" (.optional .int32), initialField "amount" .float64]
    [referenceSlot "lender" "sql::Person", referenceSlot "borrower" "sql::Person"]
  declaration :=
    { table := "loans"
      columns := [generatedColumn "id", column "lender_id", column "borrower_id",
        column "amount"]
      relations := [manyToOne "lender" "sql::Person" "lender_id" "id",
        (manyToOne "borrower" "sql::Person" "borrower_id" "id").orNone] }

def enrollment : EntityType where
  prototype := .mk "sql::Enrollment"
    [initialField "course" .text, initialField "student" .text,
      initialField "grade" (.optional .float64)]
    []
  declaration :=
    { table := "enrollments"
      columns := [keyColumn "course", keyColumn "student", column "grade"] }

/-! ## Single features -/

def shelf : EntityType where
  prototype := .mk "misc::Shelf"
    [initialField "code" .text, initialField "room" .int32,
      initialField "label" (.optional .text), initialField "removed" .boolean]
    []
  declaration :=
    { columns := [keyColumn "code", keyColumn "room",
        { column "label" with name := "shelf_label" },
        { column "removed" with softDelete := true }] }

/-- A generated key that is a text: not mappable. -/
def badKey : EntityType where
  prototype := .mk "misc::BadKey" [initialField "id" .text] []
  declaration := { columns := [generatedColumn "id"] }

/-- A generated integer key that is never absent: not mappable. -/
def counter : EntityType where
  prototype := .mk "misc::Counter" [initialField "id" .int32, initialField "name" .text] []
  declaration := { columns := [generatedColumn "id", column "name"] }

def log : EntityType where
  prototype := .mk "misc::Log"
    [initialField "at" (.optional .timestamp), initialField "line" .text,
      initialField "extra" .any]
    []
  declaration :=
    { schema := "audit"
      columns := [{ column "at" with autoTimestamp := true }, column "line", column "extra"] }

def ticket : EntityType where
  prototype := .mk "misc::Ticket" [initialField "id" (.optional .int32)] []
  declaration := { table := "tickets", columns := [generatedColumn "id"] }

/-- Mappable itself, but its relations lead to a type that is not. -/
def broken : EntityType where
  prototype := .mk "misc::Broken"
    [initialField "id" (.optional .int32), initialField "bad_id" (.optional .text)]
    [referenceSlot "bad" "misc::BadKey", collectionSlot "bads" "misc::BadKey"]
  declaration :=
    { table := "broken"
      columns := [generatedColumn "id", column "bad_id"]
      relations := [manyToOne "bad" "misc::BadKey" "bad_id" "id",
        oneToMany "bads" "misc::BadKey" "id" "id"] }

/-- All of them. -/
def catalog : List EntityType :=
  [author, book, person, loan, enrollment,
    Conformance.Library.author, Conformance.Library.book, Conformance.Library.review,
    Conformance.Transactions.team, Conformance.Transactions.player,
    Conformance.Enrollment.enrollment, Conformance.Enrollment.course,
    Conformance.Enrollment.courseTag,
    shelf, badKey, counter, log, ticket, broken]

/-! ## Two records with a field of every type

They leave the declaration open, for trying out declarations. -/

def mainPrototype : Record := .mk "Main"
  [initialField "id" (.optional .int32), initialField "uid" .uuid,
    initialField "ouid" (.optional .uuid), initialField "code" .text,
    initialField "text" (.optional .text), initialField "num" .int32,
    initialField "onum" (.optional .int32), initialField "big" .int64,
    initialField "obig" (.optional .int64), initialField "flag" .boolean,
    initialField "oflag" (.optional .boolean), initialField "ratio" .float64,
    initialField "oratio" (.optional .float64), initialField "data" .bytes,
    initialField "odata" (.optional .bytes), initialField "at" (.optional .timestamp),
    initialField "at_req" .timestamp, initialField "any" .any,
    ⟨"boxed", .boxed .int32, .int32 (some 7)⟩, initialField "parent_id" (.optional .int32),
    initialField "peer_id" (.optional .int32), initialField "peer_uid" (.optional .uuid)]
  [referenceSlot "parent" "Main", referenceSlot "peer" "Peer", referenceSlot "alt" "Peer",
    collectionSlot "children" "Main", collectionSlot "peers" "Peer",
    collectionSlot "others" "Peer"]

def peerPrototype : Record := .mk "Peer"
  [initialField "id" (.optional .int32), initialField "uid" .uuid, initialField "code" .text,
    initialField "text" (.optional .text), initialField "num" .int32,
    initialField "onum" (.optional .int32), initialField "flag" .boolean,
    initialField "oflag" (.optional .boolean), initialField "at" (.optional .timestamp),
    initialField "main_id" (.optional .int32), initialField "main_req" .int32,
    initialField "main_uid" (.optional .uuid), initialField "main_code" .text]
  [referenceSlot "main" "Main", referenceSlot "next" "Peer", collectionSlot "mains" "Main",
    collectionSlot "tails" "Peer"]

/-- The catalog with declarations for the two open records. -/
def model (main peer : Option Declaration) : Model :=
  ⟨catalog ++ (main.map fun d => ⟨mainPrototype, d⟩).toList ++
    (peer.map fun d => ⟨peerPrototype, d⟩).toList⟩

end GraphStore.Sample
