import GraphStore.Conformance.Enrollment
import GraphStore.Conformance.Trial

/-!
# The trial of composite keys

Rows with keys of their own are inserted by force, columns that are never updated stay as they
are, and collections of rows made of keys alone are reconciled.
-/

set_option autoImplicit false

namespace GraphStore.Conformance.Enrollment

open Trial

variable {σ : Type}

def trial (store : Store σ) : Trial σ Unit := do
  expect "Failed to drop Enrollment table" (store.dropTable enrollment.name true)
  expect "Failed to create Enrollment table" (store.createTable enrollment.name false)
  expect "Failed to drop CourseTag table" (store.dropTable courseTag.name true)
  expect "Failed to drop Course table" (store.dropTable course.name true)
  expect "Failed to create Course table" (store.createTable course.name false)
  expect "Failed to create CourseTag table" (store.createTable courseTag.name false)
  let map ← expect "Failed to map Enrollment" (store.mapOf enrollment.name)
  let front := newRecord enrollment [("course", text "Astronomy"), ("student", text "Vera"),
    ("notes", text "Front row")] []
  let edwin := newRecord enrollment [("course", text "Astronomy"), ("student", text "Edwin")] []
  let optics := newRecord enrollment [("course", text "Optics"), ("student", text "Vera"),
    ("grade", .float64 (some (Binary64.ofFloat 28.5)))] []
  for row in [front, edwin, optics] do
    let _ ← write "Failed to insert an enrollment" row (store.insert true)
  let front ← write "Inserting a row with a populated key is a no op" front (store.insert false)
  -- composite keys
  let key ← expect "Failed to compute the key" (Work.ofExcept (map.compositeKey front))
  demandEqual key (text "course=Astronomy;student=Vera;")
  let found ← expect "Failed to select the enrollments of Vera"
    (store.select enrollment.name (.compare .equal "student" (text "Vera")) [] {})
  demandEqual found.length 2
  -- a column that is never updated
  let grade : Value := .float64 (some (Binary64.ofFloat 30))
  let moved := (front.withValue "grade" grade).withValue "notes" (text "Moved to the back")
  let _ ← write "Failed to update the grade" moved (store.update [])
  let ofFront := (Predicate.compare .equal "course" (text "Astronomy")).and
    (.compare .equal "student" (text "Vera"))
  let found ← expect "Failed to select one enrollment"
    (store.select enrollment.name ofFront [] {})
  demandEqual found.length 1
  demandEqual (found.map (value · "grade")) [grade]
  demandEqual (found.map (value · "notes")) [text "Front row"]
  let _ ← write "Failed to delete an enrollment" edwin store.delete
  let found ← expect "Failed to select the Astronomy enrollments"
    (store.select enrollment.name (.compare .equal "course" (text "Astronomy")) [] {})
  demandEqual found.length 1
  let _ ← expectError "Composite keys cannot be looked up by a single id"
    (store.find enrollment.name (text "Astronomy") [])
  let nobody ← expect "Failed to select with an empty list"
    (store.select enrollment.name (.isIn "student" []) [] {})
  demand nobody.isEmpty
  let all ← expect "Failed to select with an empty exclusion list"
    (store.select enrollment.name (Predicate.isIn "student" []).negation [] {})
  demandEqual all.length 2
  -- collections of rows made of keys alone
  let opt ← write "Failed to insert the course"
    (newRecord course [("code", text "OPT"), ("title", text "Optics")] []) (store.insert true)
  let tags ← writeAll "Failed to insert a course tag"
    (["lenses", "lasers", "prisms"].map fun label =>
      newRecord courseTag [("course", text "OPT"), ("label", text label)] [])
    (store.insert true)
  let kept := tags.filter fun t => value t "label" != text "lasers"
  let opt := (opt.withItems "tags" kept).withValue "title" (text "Geometric optics")
  let _ ← write "Failed to update a course with key only tags" opt (store.update ["tags"])
  let courses ← expect "Failed to select the course with its tags"
    (store.select course.name (.compare .equal "code" (text "OPT")) ["tags"] {})
  demandEqual courses.length 1
  demandEqual (courses.map (value · "title")) [text "Geometric optics"]
  let labels := (courses.flatMap (·.items "tags")).map (value · "label")
  demand ([text "lenses", text "prisms"].isPerm labels)

end GraphStore.Conformance.Enrollment
