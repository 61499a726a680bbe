import GraphStore.Conformance.Library
import GraphStore.Conformance.Trial

/-!
# The trial of graphs

Whole graphs of authors, books and reviews are stored, loaded, reconciled and deleted, with keys
of both kinds, marks of deletion, and two references to the same type.
-/

set_option autoImplicit false

namespace GraphStore.Conformance.Library

open Trial

variable {σ : Type}

/-- The texts of one field of several records. -/
def column? (rs : List Record) (property : String) : List Value := rs.map (value · property)

def isNil (v : Value) : Bool := v == .uuid (some .nil)

/-- New tables, and a record that is found again as it was stored. -/
def trialRoundTrip (store : Store σ) : Trial σ Unit := do
  expect "Failed to drop Review table" (store.dropTable review.name true)
  expect "Failed to drop Book table" (store.dropTable book.name true)
  expect "Failed to drop Author table" (store.dropTable author.name true)
  expect "Failed to create Author table" (store.createTable author.name false)
  expect "Failed to create Book table" (store.createTable book.name false)
  expect "Failed to create Review table" (store.createTable review.name true)
  let tolkien ← write "Failed to insert Tolkien"
    (newRecord author [("name", text "J.R.R. Tolkien"), ("birth_year", int 1892)] [])
    (store.insert false)
  demand !isNil (value tolkien "id")
  let found ← expect "Failed to find Tolkien" (store.find author.name (value tolkien "id") [])
  let found ← present "Tolkien was not stored" found
  demandEqual found.fields tolkien.fields
  let missing ← expect "Failed to look up a missing author"
    (store.find author.name (.uuid (some (← randomUuid))) [])
  demand missing.isNone

/-- A book with a new author, who is stored before it, and a filter on the author: the book. -/
def trialReference (store : Store σ) : Trial σ Record := do
  let cosmos ← write "Failed to insert Cosmos with its author"
    (newRecord book [("title", text "Cosmos")]
      [("author", [newRecord author [("name", text "Carl Sagan"), ("birth_year", int 1934)] []])])
    (store.insert false)
  let sagan := ((cosmos.reference? "author").map (value · "id")).getD .null
  demand !isNil sagan
  demandEqual (value cosmos "author_id") sagan
  demand !(value cosmos "id").isNull
  demand !(value cosmos "updated_at").isNull
  let bornThen := Predicate.compare .equal "author.birth_year" (int 1934)
  let books ← expect "Failed to select books by author birth year"
    (store.select book.name bornThen ["author"] {})
  demandEqual books.length 1
  demandEqual (column? books "title") [text "Cosmos"]
  demandEqual (column? books "id") [value cosmos "id"]
  demandEqual (column? (books.flatMap (·.items "author")) "name") [text "Carl Sagan"]
  let _ ← expectError "Relation properties cannot be used outside a select including them"
    (store.deleteWhere book.name bornThen)
  return cosmos

/-- An author with books and reviews, all new: each gets the key of its owner. -/
def trialCascade (store : Store σ) (sagan : Value) : Trial σ Record := do
  let reviewed := newRecord book [("title", text "A Wizard of Earthsea")]
    [("reviews", [newRecord review [("stars", int 5), ("text", text "Timeless")] [],
      newRecord review [("stars", int 4), ("text", text "Short but deep")] []])]
  let edited := newRecord book
    [("title", text "The Left Hand of Darkness"), ("editor_id", sagan)] []
  let other := newRecord book [("title", text "The Dispossessed")] []
  let leGuin ← write "Failed to insert Le Guin with her books"
    (newRecord author [("name", text "Ursula K. Le Guin"), ("birth_year", int 1929)]
      [("books", [reviewed, edited, other])])
    (store.insert false)
  for b in leGuin.items "books" do
    demandEqual (value b "author_id") (value leGuin "id")
    demand !(value b "id").isNull
    for r in b.items "reviews" do
      demandEqual (value r "book_id") (value b "id")
      demand !isNil (value r "id")
  return leGuin

/-- Selects with several relations, two of them to the same type. -/
def trialSelects (store : Store σ) : Trial σ Unit := do
  let books ← expect "Failed to select a book with author and editor"
    (store.select book.name (.compare .equal "title" (text "The Left Hand of Darkness"))
      ["author", "editor"] {})
  demandEqual books.length 1
  demandEqual (column? (books.flatMap (·.items "author")) "name") [text "Ursula K. Le Guin"]
  demandEqual (column? (books.flatMap (·.items "editor")) "name") [text "Carl Sagan"]
  let books ← expect "Failed to select the books of Le Guin"
    (store.select book.name (.compare .equal "author.name" (text "Ursula K. Le Guin"))
      ["author", "editor", "reviews"] { orderBy := [("title", .asc)] })
  demandEqual (column? books "title") [text "A Wizard of Earthsea", text "The Dispossessed",
    text "The Left Hand of Darkness"]
  demandEqual (((books.take 1).flatMap (·.items "reviews")).length) 2
  demand (((books.drop 1).take 1).all fun b => (b.reference? "editor").isNone)
  demand (((books.drop 1).take 1).all fun b => (b.items "reviews").isEmpty)
  -- joined rows come together under one root
  let authors ← expect "Failed to select Le Guin with her books"
    (store.select author.name (.startsWith "name" "Ursula") ["books"] {})
  demandEqual authors.length 1
  demandEqual (authors.flatMap (·.items "books")).length 3

/-- Reconciling a collection whose rows are marked as deleted: the author afterwards. -/
def trialMarking (store : Store σ) (leGuin : Record) : Trial σ Record := do
  let kept := (leGuin.items "books").filter fun b => value b "title" != text "The Dispossessed"
  let lavinia := newRecord book [("title", text "Lavinia")] []
  let leGuin ← write "Failed to update Le Guin"
    ((leGuin.withItems "books" (kept ++ [lavinia])).withValue "birth_year" (int 1930))
    (store.update ["books"])
  let authors ← expect "Failed to select Le Guin after the update"
    (store.select author.name (.compare .equal "id" (value leGuin "id")) ["books"] {})
  let found ← present "index out of bounds" authors.head?
  demandEqual (value found "birth_year") (int 1930)
  demandEqual (found.items "books").length 3
  let lavinia ← present "index out of bounds" (leGuin.items "books").getLast?
  demand !(value lavinia "id").isNull
  demandEqual (value lavinia "author_id") (value leGuin "id")
  let removed ← expect "Failed to select the removed book"
    (store.select book.name (.compare .equal "title" (text "The Dispossessed")) []
      { includeDeleted := true })
  demandEqual removed.length 1 "assertion \x60left == right\x60 failed"
  demand (removed.all fun b => value b "removed" == .boolean (some true))
  return leGuin

/-- Reconciling a collection whose rows are deleted. -/
def trialReconciling (store : Store σ) (leGuin : Record) : Trial σ Unit := do
  let earthsea ← present "index out of bounds" (leGuin.items "books").head?
  let best := ((earthsea.items "reviews").filter fun r => value r "stars" == int 5).map
    (·.withValue "text" (text "Timeless classic"))
  let worst := newRecord review [("stars", int 3), ("text", text "Not my kind of magic")] []
  let earthsea ← write "Failed to update the reviews of Earthsea"
    (earthsea.withItems "reviews" (best ++ [worst])) (store.update ["reviews"])
  let reviews ← expect "Failed to select the reviews of Earthsea"
    (store.select review.name (.compare .equal "book_id" (value earthsea "id")) [] {})
  let shown := reviews.map fun r => (value r "stars", value r "text")
  demand ([(int 5, text "Timeless classic"), (int 3, text "Not my kind of magic")].isPerm shown)

/-- Deleting: by a mark, and by a predicate. -/
def trialDeleting (store : Store σ) (id : Value) : Trial σ Unit := do
  let cosmos ← expect "Failed to find Cosmos" (store.find book.name id [])
  let cosmos ← present "Cosmos was not stored" cosmos
  let cosmos ← write "Failed to delete Cosmos" cosmos store.delete
  demandEqual (value cosmos "removed") (.boolean (some true)) "assertion failed"
  let found ← expect "Failed to look up the deleted Cosmos" (store.find book.name id [])
  demand found.isNone
  let books ← expect "Failed to select Cosmos including deleted rows"
    (store.select book.name (.compare .equal "id" id) [] { includeDeleted := true })
  demandEqual books.length 1
  demand (books.all fun b => value b "removed" == .boolean (some true))
  let affected ← expect "Failed to delete the low rated reviews"
    (store.deleteWhere review.name (.compare .less "stars" (int 4)))
  demandEqual affected 1
  let reviews ← expect "Failed to select the remaining reviews"
    (store.select review.name .always [] {})
  demand !(column? reviews "stars").contains (int 3)

/-- Limits, orders and lists of values. -/
def trialLimits (store : Store σ) : Trial σ Unit := do
  let books ← expect "Failed to select with limit"
    (store.select book.name (.contains "title" "of") []
      { orderBy := [("title", .desc)], limit := some 1 })
  demandEqual books.length 1
  demandEqual (column? books "title") [text "The Left Hand of Darkness"]
  let authors ← expect "Failed to select authors by name list"
    (store.select author.name (.isIn "name" [text "J.R.R. Tolkien", text "Carl Sagan"]) [] {})
  demandEqual authors.length 2

def trial (store : Store σ) : Trial σ Unit := do
  trialRoundTrip store
  let cosmos ← trialReference store
  let leGuin ← trialCascade store (value cosmos "author_id")
  trialSelects store
  let leGuin ← trialMarking store leGuin
  trialReconciling store leGuin
  trialDeleting store (value cosmos "id")
  trialLimits store

end GraphStore.Conformance.Library
