/-!
# Writing items one after another with a separator

`separatedBy` is the one way in which lists are laid out: columns, assignments, orderings. A
separator is owed as soon as an item has written something, and it is paid when the next item
starts, before it is known whether that item writes anything itself.

Texts are laid out behind one another in a buffer (`appendSeparated`), where a separator is owed if
the buffer has grown since the item before was begun.
-/

set_option autoImplicit false

namespace GraphStore.Text

variable {σ α β : Type}

/-- The output of the items, given whether the item before them has written anything. -/
def separatedFrom (write : α → List β) (separator : List β) : Bool → List α → List β
  | _, [] => []
  | owed, item :: items =>
      (if owed then separator else []) ++
        (write item ++ separatedFrom write separator (!(write item).isEmpty) items)

/-- The outputs of `items` in order, each preceded by `separator` when the item before it has
written something. -/
def separatedBy (write : α → List β) (separator : List β) (items : List α) : List β :=
  separatedFrom write separator false items

@[simp] theorem separatedBy_nil (write : α → List β) (separator : List β) :
    separatedBy write separator [] = [] := rfl

@[simp] theorem separatedBy_singleton (write : α → List β) (separator : List β) (item : α) :
    separatedBy write separator [item] = write item := by
  simp [separatedBy, separatedFrom]

/-! ## Buffers -/

/-- A function that appends to a buffer: what it appends for an item, and the state that it keeps to
itself until the next one. It may look at the buffer. -/
abbrev Appending (σ α β : Type) := σ → List β → α → List β × σ

/-- The buffer before the next item, with the separator if it is longer than `length`, which was
its length before the last one. -/
def spaced (separator : List β) (length : Nat) (buffer : List β) : List β :=
  if length < buffer.length then buffer ++ separator else buffer

/-- The buffer behind the items, given its length before the item before them. -/
def appendFrom (f : Appending σ α β) (separator : List β) : Nat → σ → List β → List α → List β
  | _, _, buffer, [] => buffer
  | length, s, buffer, item :: items =>
      let buffer := spaced separator length buffer
      let (output, s) := f s buffer item
      appendFrom f separator buffer.length s (buffer ++ output) items

/-- The buffer behind the items. -/
def appendSeparated (f : Appending σ α β) (separator : List β) (s : σ) (buffer : List β)
    (items : List α) : List β :=
  appendFrom f separator buffer.length s buffer items

/-- Strings laid out after the text `before`. -/
def separatedText (before : String) (items : List String) (separator : String) : String :=
  String.ofList (appendSeparated (fun _ _ item => (item.toList, ())) separator.toList ()
    before.toList items)

end GraphStore.Text
