import GraphStore.Proofs.Sql.Lexing
import GraphStore.Proofs.Sql.Scanning
import GraphStore.Proofs.Value.KeyText
import Mathlib.Data.List.Nodup
import Mathlib.Data.List.SplitBy

/-!
# The lexemes of a query

`Dialect.lex` reads a query as its database does: names lose their quotes, every placeholder is
replaced by the index of the parameter that is bound to it, and what remains is cut into words and
signs. The three ways to mark parameters, by number, by name and by position, come to the same when
the names of the parameters are different (`resolveFrom_marked`).
-/

set_option autoImplicit false

namespace GraphStore

namespace Sign

variable {μ : Type}

/-- Whether two signs stand in the same word. -/
def runsOn : Sign μ → Sign μ → Bool
  | .char c, .char d =>
      (isWordChar c && isWordChar d) || (isComparisonSign c && isComparisonSign d)
  | _, _ => false

def isBlank : Sign μ → Bool
  | .char c => c == ' ' || c == '\n'
  | _ => false

/-- The lexemes of a text: words, as long as they run on, and single signs, without blanks. -/
def lexemes (ss : List (Sign μ)) : List (List (Sign μ)) :=
  (ss.splitBy runsOn).filter fun lexeme => !lexeme.all isBlank

/-- Blanks are no placeholders. -/
theorem marks_eq_nil_of_blank {ss : List (Sign μ)} (h : ss.all isBlank = true) : marks ss = [] := by
  induction ss with
  | nil => rfl
  | cons s ss ih =>
      rw [List.all_cons, Bool.and_eq_true] at h
      cases s with
      | char c => exact ih h.2
      | name n => cases h.1
      | mark m => cases h.1

/-- The lexemes have the placeholders of the text. -/
theorem marks_flatten_lexemes (ss : List (Sign μ)) : marks (lexemes ss).flatten = marks ss := by
  have kept : ∀ groups : List (List (Sign μ)),
      marks (groups.filter fun lexeme => !lexeme.all isBlank).flatten = marks groups.flatten := by
    intro groups
    induction groups with
    | nil => rfl
    | cons g gs ih =>
        rw [List.flatten_cons, marks_append, ← ih]
        cases hblank : g.all isBlank with
        | true => rw [List.filter_cons_of_neg (by simp [hblank]), marks_eq_nil_of_blank hblank,
            List.nil_append]
        | false => rw [List.filter_cons_of_pos (by simp [hblank]), List.flatten_cons, marks_append]
  rw [lexemes, kept, List.flatten_splitBy]

/-- The signs with their placeholders numbered. -/
def enumerateFrom {μ : Type} : Nat → List (Sign μ) → List (Sign Nat)
  | _, [] => []
  | n, .char c :: ss => .char c :: enumerateFrom n ss
  | n, .name s :: ss => .name s :: enumerateFrom n ss
  | n, .mark _ :: ss => .mark n :: enumerateFrom (n + 1) ss

theorem marks_enumerateFrom (n : Nat) (ss : List (Sign μ)) :
    marks (enumerateFrom n ss) = List.range' n (marks ss).length := by
  induction ss generalizing n with
  | nil => rfl
  | cons s ss ih =>
      cases s with
      | char c => exact ih n
      | name s => exact ih n
      | mark m =>
          rw [enumerateFrom, marks_mark, ih, marks_mark, List.length_cons, List.range'_succ]

end Sign

/-! ## What placeholders refer to -/

namespace Dialect

/-- The index of the parameter that is bound to a placeholder with `count` others before it, if
there is one. Numbers count from one. -/
def referent? (d : Dialect) (params : List Param) (count : Nat) (mark : List Char) : Option Nat :=
  let index : Option Nat := match d with
    | postgres => match (String.ofList mark.tail).toNat? with
      | some (n + 1) => some n
      | _ => none
    | mySql => some count
    | sqlite | sqlServer => params.findIdx? fun p => p.name.toList == mark.tail
  index.filter (· < params.length)

/-- The signs with the indices of parameters in place of placeholders, `count` of which stand before
them; nothing if a placeholder has no parameter. -/
def resolveFrom (d : Dialect) (params : List Param) :
    Nat → List (Sign (List Char)) → Option (List (Sign Nat))
  | _, [] => some []
  | count, .char c :: ss => (d.resolveFrom params count ss).map (.char c :: ·)
  | count, .name s :: ss => (d.resolveFrom params count ss).map (.name s :: ·)
  | count, .mark m :: ss => do
      let index ← d.referent? params count m
      let rest ← d.resolveFrom params (count + 1) ss
      return .mark index :: rest

/-- The lexemes of a query. -/
def lex (d : Dialect) (q : Query) : Option (List (List (Sign Nat))) :=
  (d.resolveFrom q.params 0 (d.scan q.sql)).map Sign.lexemes

/-- A parameter is found by its name if no other has the same. -/
theorem findIdx?_name {before after : List Param} {p : Param}
    (h : ((before ++ p :: after).map (·.name)).Nodup) :
    (before ++ p :: after).findIdx? (fun q => q.name.toList == p.name.toList) =
      some before.length := by
  have fresh : ∀ q ∈ before, (q.name.toList == p.name.toList) = false := by
    intro q hq
    rw [beq_eq_false_iff_ne, ne_eq, String.toList_inj]
    intro heq
    rw [List.map_append, List.nodup_append] at h
    exact h.2.2 _ (List.mem_map_of_mem hq) _ (List.mem_map_of_mem List.mem_cons_self) heq
  rw [List.findIdx?_append, List.findIdx?_eq_none_iff.mpr fresh, List.findIdx?_cons]
  simp

/-- The placeholder of a parameter refers to it. -/
theorem referent?_placeholder (d : Dialect) {before after : List Param} {p : Param} {count : Nat}
    (hcount : d = .postgres → count = before.length)
    (hnames : d.marksByName = true → ((before ++ p :: after).map (·.name)).Nodup) :
    d.referent? (before ++ p :: after) before.length (d.placeholder count p).toList =
      some before.length := by
  have known : (some before.length).filter (· < (before ++ p :: after).length) =
      some before.length := by simp
  have named : ∀ c : Char, (String.singleton c ++ p.name).toList.tail = p.name.toList := by
    intro c
    simp
  cases d with
  | postgres =>
      obtain rfl := hcount rfl
      have digits : (placeholder .postgres before.length p).toList.tail =
          (toString (before.length + 1)).toList := by
        rw [placeholder, String.toList_append]
        rfl
      have number : (toString (before.length + 1)).toNat? = some (before.length + 1) :=
        Nat.toNat?_repr _
      rw [referent?, digits, String.ofList_toList, number]
      exact known
  | mySql => exact known
  | sqlite =>
      have name : (placeholder .sqlite count p).toList.tail = p.name.toList := named ':'
      rw [referent?, name, findIdx?_name (hnames rfl)]
      exact known
  | sqlServer =>
      have name : (placeholder .sqlServer count p).toList.tail = p.name.toList := named '@'
      rw [referent?, name, findIdx?_name (hnames rfl)]
      exact known

/-- **Every placeholder refers to the parameter it was written for.** -/
theorem resolveFrom_marked (d : Dialect) {params : List Param} {ss : List (Sign Param)}
    (before : List Param) (hparams : params = before ++ Sign.marks ss) (count : Nat)
    (hcount : d = .postgres → count = before.length)
    (hnames : d.marksByName = true → (params.map (·.name)).Nodup) :
    d.resolveFrom params before.length (d.marked count ss) =
      some (Sign.enumerateFrom before.length ss) := by
  induction ss generalizing before count with
  | nil => rfl
  | cons s ss ih =>
      cases s with
      | char c =>
          rw [marked, resolveFrom, ih before hparams count hcount]
          rfl
      | name s =>
          rw [marked, resolveFrom, ih before hparams count hcount]
          rfl
      | mark p =>
          rw [Sign.marks_mark] at hparams
          have referent := d.referent?_placeholder hcount (hparams ▸ hnames)
          have rest := ih (before ++ [p]) (by rw [hparams]; simp) (d.countParam count) fun hd => by
            rw [List.length_append, ← hcount hd, hd]
            rfl
          rw [List.length_append, List.length_singleton] at rest
          rw [marked, resolveFrom, hparams, referent, ← hparams, rest]
          rfl

end Dialect

end GraphStore
