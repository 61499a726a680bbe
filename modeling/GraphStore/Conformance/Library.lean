import GraphStore.Record.Prototype

/-!
# The library entities

Authors with their books, and reviews of books: identifiers drawn on insert beside keys counted
by the database, a mark of deletion, a time stamp, and two references to the same type.
-/

set_option autoImplicit false

namespace GraphStore.Conformance.Library

def author : EntityType where
  prototype := .mk "lib::Author"
    [initialField "id" .uuid, initialField "name" .text, initialField "birth_year" .int32]
    [collectionSlot "books" "lib::Book"]
  declaration :=
    { table := "authors"
      columns := [{ generatedColumn "id" with name := "author_id" }, column "name",
        column "birth_year"]
      relations := [oneToMany "books" "lib::Book" "id" "author_id"] }

def book : EntityType where
  prototype := .mk "lib::Book"
    [initialField "id" (.optional .int32), initialField "title" .text,
      initialField "author_id" .uuid, initialField "editor_id" (.optional .uuid),
      initialField "removed" .boolean, initialField "updated_at" (.optional .timestamp)]
    [referenceSlot "author" "lib::Author", referenceSlot "editor" "lib::Author",
      collectionSlot "reviews" "lib::Review"]
  declaration :=
    { table := "books"
      columns := [generatedColumn "id", column "title", column "author_id", column "editor_id",
        { column "removed" with softDelete := true },
        { column "updated_at" with autoTimestamp := true }]
      relations := [manyToOne "author" "lib::Author" "author_id" "id",
        (manyToOne "editor" "lib::Author" "editor_id" "id").orNone,
        oneToMany "reviews" "lib::Review" "id" "book_id"] }

def review : EntityType where
  prototype := .mk "lib::Review"
    [initialField "id" .uuid, initialField "book_id" .int32, initialField "stars" .int32,
      initialField "text" .text]
    []
  declaration :=
    { table := "reviews"
      columns := [generatedColumn "id", column "book_id", column "stars", column "text"] }

end GraphStore.Conformance.Library
