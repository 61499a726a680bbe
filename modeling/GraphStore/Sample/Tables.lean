import GraphStore.Proofs.Statement.Select
import GraphStore.Record.NumberedSupply
import GraphStore.Sample.Catalog

/-!
# Sample tables

The tables of a small library, with a book, its editor and two reviews, and rows of selects of
enrollments and of courses.
-/

set_option autoImplicit false

namespace GraphStore.Sample

open Conformance

/-- The map of an entity type that can be mapped. -/
def mapOf (e : EntityType) : EntityMap :=
  match e.derive with
  | .ok map => map
  | .error _ => ⟨e.name, ⟨"", ""⟩, [], [], none, none, none, [], e.prototype⟩

/-- A row with the given cells; its other cells are null. -/
def cells (named : List (String × Value)) : TableRow := fun name => (named.lookup name).getD .null

/-- An identifier of the numbered supply. -/
def identifier (n : Nat) : Value := .uuid (some (NumberedSupply.uuid n))

def bookRow : TableRow :=
  cells [("id", .int32 (some 1)), ("title", .varchar (some "Ode")), ("author_id", identifier 1),
    ("editor_id", identifier 2), ("removed", .boolean (some false))]

def editorRow : TableRow :=
  cells [("author_id", identifier 2), ("name", .varchar (some "Hunt")),
    ("birth_year", .int32 (some 1784))]

/-- A review of the book, with a number for its identifier. -/
def reviewRow (n : Nat) : TableRow :=
  cells [("id", identifier n), ("book_id", .int32 (some 1)), ("stars", .int32 (some 5)),
    ("text", .varchar (some ""))]

def library : Tables := fun table =>
  if table.name = "books" then [bookRow]
  else if table.name = "authors" then [editorRow]
  else if table.name = "reviews" then [reviewRow 3, reviewRow 4]
  else []

/-- The key of books. -/
def bookKey : ColumnDef := ⟨"id", "id", .int32 none, false, .generated, true, true⟩

def authorKey : ColumnDef := ⟨"id", "author_id", .uuid (some .nil), false, .generated, true, true⟩

def reviewKey : ColumnDef := ⟨"id", "id", .uuid (some .nil), false, .generated, true, true⟩

/-- The editor of a book, who may be missing. -/
def editor : Included where
  relation := ⟨"editor", .manyToOne, "lib::Author", "editor_id", "id", true⟩
  target := mapOf Library.author
  own := ⟨"editor_id", "editor_id", .uuid none, true, .none, true, true⟩
  foreign := authorKey

/-- The reviews of a book. -/
def reviews : Included where
  relation := ⟨"reviews", .oneToMany, "lib::Review", "id", "book_id", false⟩
  target := mapOf Library.review
  own := bookKey
  foreign := ⟨"book_id", "book_id", .int32 (some 0), false, .none, true, true⟩

/-! ## Enrollments, told apart by two texts -/

/-- The enrollments among the columns of a select of them alone. -/
def enrollments : Segment :=
  { relation := none, map := mapOf enrollment, label := "enrollments", start := 0
    properties := ["course", "student", "grade"] }

/-- A row of a select of enrollments, without a grade. -/
def enrollmentRow (course student : String) : Row :=
  ⟨[], [.null, .varchar (some course), .varchar (some student), .float64 none]⟩

/-- An enrollment without a grade. -/
def newEnrollment (course student : String) : Record :=
  (enrollment.prototype.withValue "course" (.varchar (some course))).withValue "student"
    (.varchar (some student))

/-! ## Courses with their tags -/

def courses : EntityMap := mapOf Enrollment.course

/-- A row of a select of courses with their tags; a course without tags has nothing there. -/
def courseRow (code : String) (label : Option String) : Row :=
  ⟨[], [.null, .varchar (some code), .varchar (some ""), .null,
    .varchar (label.map fun _ => code), .varchar label]⟩

end GraphStore.Sample
