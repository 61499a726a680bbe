import GraphStore.Record.Prototype

/-!
# The enrollment entities

Tables with composite keys, one of them made of keys alone, and a column that is never updated.
-/

set_option autoImplicit false

namespace GraphStore.Conformance.Enrollment

def enrollment : EntityType where
  prototype := .mk "enr::Enrollment"
    [initialField "course" .text, initialField "student" .text,
      initialField "grade" (.optional .float64), initialField "notes" (.optional .text)]
    []
  declaration :=
    { table := "enrollments"
      columns := [keyColumn "course", keyColumn "student", column "grade",
        { column "notes" with updatable := false }] }

def course : EntityType where
  prototype := .mk "enr::Course"
    [initialField "code" .text, initialField "title" .text]
    [collectionSlot "tags" "enr::CourseTag"]
  declaration :=
    { table := "courses"
      columns := [keyColumn "code", column "title"]
      relations := [oneToMany "tags" "enr::CourseTag" "code" "course"] }

def courseTag : EntityType where
  prototype := .mk "enr::CourseTag"
    [initialField "course" .text, initialField "label" .text] []
  declaration :=
    { table := "course_tags", columns := [keyColumn "course", keyColumn "label"] }

end GraphStore.Conformance.Enrollment
