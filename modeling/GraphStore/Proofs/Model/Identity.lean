import GraphStore.Proofs.Record.Typing
import GraphStore.Proofs.Statement.Insert
import GraphStore.Proofs.Value.KeyText
import Mathlib.Data.List.Induction

/-!
# Identities

The identity of a record is the text of its key columns. Records with the same key have the same
identity. The converse holds for a key of one column; a key of several columns is put together as
`column=value;` without escaping, so it holds as long as texts do not get in the way of reading the
parts apart again (`EntityMap.Separates`).
-/

set_option autoImplicit false

namespace GraphStore

/-! ## Parts that can be read apart -/

namespace Text

variable {α : Type}

/-- A list is cut in the same way by its first delimiter. -/
theorem eq_of_append_cons {d : Char} {xs ys zs ws : List Char} (hx : d ∉ xs) (hy : d ∉ ys)
    (h : xs ++ d :: zs = ys ++ d :: ws) : xs = ys ∧ zs = ws := by
  induction xs generalizing ys with
  | nil =>
      cases ys with
      | nil => exact ⟨rfl, (List.cons.inj h).2⟩
      | cons y ys => exact absurd (List.cons.inj h).1 fun equal => hy (equal ▸ List.mem_cons_self)
  | cons x xs ih =>
      cases ys with
      | nil => exact absurd (List.cons.inj h).1.symm fun equal => hx (equal ▸ List.mem_cons_self)
      | cons y ys =>
          obtain ⟨hxs, hrest⟩ := ih (fun hd => hx (List.mem_cons_of_mem x hd))
            (fun hd => hy (List.mem_cons_of_mem y hd)) (List.cons.inj h).2
          exact ⟨by rw [(List.cons.inj h).1, hxs], hrest⟩

/-- A list is cut in the same way by its last delimiter. -/
theorem eq_of_append_cons_last {d : Char} {xs ys zs ws : List Char} (hz : d ∉ zs) (hw : d ∉ ws)
    (h : xs ++ d :: zs = ys ++ d :: ws) : xs = ys ∧ zs = ws := by
  have reversed : zs.reverse ++ d :: xs.reverse = ws.reverse ++ d :: ys.reverse := by
    simpa using congrArg List.reverse h
  obtain ⟨hzs, hxs⟩ := eq_of_append_cons (by simpa using hz) (by simpa using hw) reversed
  exact ⟨List.reverse_injective hxs, List.reverse_injective hzs⟩

/-- One `name=text;` for every item. -/
def pairs (name text : α → List Char) (xs : List α) : List Char :=
  xs.flatMap fun x => name x ++ '=' :: (text x ++ [';'])

variable {name f g : α → List Char} {front back : List α} {c : α}

/-- The text of the first item ends with the first semicolon. -/
theorem pairs_cons_inj (hf : ';' ∉ f c) (hg : ';' ∉ g c)
    (h : pairs name f (c :: back) = pairs name g (c :: back)) :
    f c = g c ∧ pairs name f back = pairs name g back := by
  simp only [pairs, List.flatMap_cons, List.append_assoc, List.cons_append,
    List.append_cancel_left_eq, List.cons.injEq, true_and] at h
  exact eq_of_append_cons hf hg h

/-- The text of the last item starts after the last equality sign. -/
theorem pairs_concat_inj (hf : '=' ∉ f c) (hg : '=' ∉ g c)
    (h : pairs name f (front ++ [c]) = pairs name g (front ++ [c])) :
    f c = g c ∧ pairs name f front = pairs name g front := by
  simp only [pairs, List.flatMap_append, List.flatMap_cons, List.flatMap_nil, List.append_nil,
    ← List.append_assoc] at h
  have h := eq_of_append_cons_last (by simpa using hf) (by simpa using hg) h
  exact ⟨List.append_cancel_right h.2, List.append_cancel_right h.1⟩

/-- The items can be read apart: those before `c` from the front and those after it from the
back, which leaves the text of `c`, whatever it is. -/
theorem eq_of_pairs (hfront : ∀ d ∈ front, ';' ∉ f d ∧ ';' ∉ g d)
    (hback : ∀ d ∈ back, '=' ∉ f d ∧ '=' ∉ g d)
    (h : pairs name f (front ++ c :: back) = pairs name g (front ++ c :: back)) :
    ∀ d ∈ front ++ c :: back, f d = g d := by
  induction front with
  | nil =>
      rw [List.nil_append] at h ⊢
      induction back using List.reverseRecOn with
      | nil =>
          simp only [pairs, List.flatMap_cons, List.flatMap_nil, List.append_nil,
            List.append_cancel_left_eq, List.cons.injEq, true_and] at h
          simpa using List.append_cancel_right h
      | append_singleton back last ih =>
          have hlast := hback last (by simp)
          rw [← List.cons_append] at h ⊢
          obtain ⟨heq, hrest⟩ := pairs_concat_inj hlast.1 hlast.2 h
          intro d hd
          rcases List.mem_append.mp hd with hd | hd
          · exact ih (fun e he => hback e (List.mem_append_left _ he)) hrest d hd
          · rw [List.mem_singleton.mp hd, heq]
  | cons first front ih =>
      have hfirst := hfront first (by simp)
      rw [List.cons_append] at h ⊢
      obtain ⟨heq, hrest⟩ := pairs_cons_inj hfirst.1 hfirst.2 h
      intro d hd
      rcases List.mem_cons.mp hd with rfl | hd
      · exact heq
      · exact ih (fun e he => hfront e (List.mem_cons_of_mem first he)) hrest d hd

end Text

namespace EntityMap

variable {map : EntityMap} {r r' : Record}

/-! ## Records with a key -/

/-- The fields of the key are of types whose values can be told apart by their text. -/
def HasIdentity (map : EntityMap) : Prop :=
  ∀ c ∈ map.keyColumns, ∃ t, map.prototype.fieldType? c.property = some t ∧ t.IsIdentity

/-- A record of the type that is mapped, with a key. -/
structure Identifies (map : EntityMap) (r : Record) : Prop where
  typed : r.Typed
  fieldType?_eq : ∀ p, r.fieldType? p = map.prototype.fieldType? p
  nonempty : map.hasEmptyKey r = .ok false

/-- The key columns hold the same values. -/
def SameKey (map : EntityMap) (r r' : Record) : Prop :=
  ∀ c ∈ map.keyColumns, r'.field? c.property = r.field? c.property

theorem SameKey.symm (h : map.SameKey r r') : map.SameKey r' r := fun c hc => (h c hc).symm

theorem SameKey.trans {r'' : Record} (h : map.SameKey r r') (h' : map.SameKey r' r'') :
    map.SameKey r r'' := fun c hc => (h' c hc).trans (h c hc)

/-- The texts in the keys of the records `P` do not get in the way of reading the key columns
apart: there is none with a semicolon before a certain column, and none with an equality sign
after it. -/
def Separates (map : EntityMap) (P : Record → Prop) : Prop :=
  ∃ front c back, map.keyColumns = front ++ c :: back ∧ ∀ r, P r →
    (∀ d ∈ front, ∀ s, r.field? d.property = some (.varchar (some s)) → ';' ∉ s.toList) ∧
    (∀ d ∈ back, ∀ s, r.field? d.property = some (.varchar (some s)) → '=' ∉ s.toList)

/-! ## The text of a key -/

/-- The text of a key column of a record. -/
def keyText (r : Record) (c : ColumnDef) : List Char :=
  (((r.field? c.property).map Value.text).getD "").toList

/-- The text of the key of a record. -/
def identityText (map : EntityMap) (r : Record) : List Char :=
  match map.keyColumns with
  | [c] => keyText r c
  | cs => Text.pairs (fun c => c.name.toList) (keyText r) cs

theorem keyText_of_field? {c : ColumnDef} {v : Value} (h : r.field? c.property = some v) :
    keyText r c = v.text.toList := by
  rw [keyText, h]
  rfl

theorem keyPairs_eq {cs : List ColumnDef} (h : ∀ c ∈ cs, ∃ v, r.field? c.property = some v) :
    map.keyPairs r cs =
      .ok (String.ofList (Text.pairs (fun c => c.name.toList) (keyText r) cs)) := by
  induction cs with
  | nil => rfl
  | cons c cs ih =>
      obtain ⟨v, hv⟩ := h c (by simp)
      rw [keyPairs, read_of_field? hv, ok_bind, ih fun d hd => h d (List.mem_cons_of_mem c hd),
        ok_bind]
      refine congrArg Except.ok (String.toList_injective ?_)
      simp [Text.pairs, keyText_of_field? hv]

/-- The identity of a record with a key. -/
theorem keyString_eq (h : map.hasEmptyKey r = .ok false) :
    map.keyString r = .ok (String.ofList (map.identityText r)) := by
  obtain ⟨hkeys, hfields⟩ := hasEmptyKey_eq_false.mp h
  simp only [keyString, compositeKey, requireKeys, hkeys, Bool.false_eq_true, if_false, ok_bind,
    identityText]
  rcases hcs : map.keyColumns with _ | ⟨c, _ | ⟨d, rest⟩⟩
  · rfl
  · obtain ⟨v, hv, -⟩ := hfields c (by simp [hcs])
    simp only [read_of_field? hv, keyText_of_field? hv, String.ofList_toList]
    rfl
  · rw [hcs] at hfields
    simp only [keyPairs_eq fun e he => (hfields e he).imp fun _ => And.left, ok_bind]
    rfl

/-- Records with the same key have the same identity, if they have one. -/
theorem keyString_congr (h : map.SameKey r r') : map.keyString r' = map.keyString r := by
  have pairs : ∀ cs : List ColumnDef, (∀ c ∈ cs, r'.field? c.property = r.field? c.property) →
      map.keyPairs r' cs = map.keyPairs r cs := by
    intro cs hcs
    induction cs with
    | nil => rfl
    | cons c cs ih =>
        rw [keyPairs, keyPairs, read, read, hcs c (by simp),
          ih fun d hd => hcs d (List.mem_cons_of_mem c hd)]
  unfold SameKey at h
  unfold keyString compositeKey
  generalize map.keyColumns = cs at h
  rcases cs with _ | ⟨c, _ | ⟨d, rest⟩⟩
  · rfl
  · simp only [read, h c (by simp)]
  · simp only [pairs _ h]

/-- Values of key columns with the same text are the same. -/
theorem field?_eq_of_keyText (hmap : map.HasIdentity) (h : map.Identifies r)
    (h' : map.Identifies r') {c : ColumnDef} (hc : c ∈ map.keyColumns)
    (htext : keyText r' c = keyText r c) : r'.field? c.property = r.field? c.property := by
  obtain ⟨t, ht, identity⟩ := hmap c hc
  obtain ⟨v, hv, hempty⟩ := (hasEmptyKey_eq_false.mp h.nonempty).2 c hc
  obtain ⟨v', hv', hempty'⟩ := (hasEmptyKey_eq_false.mp h'.nonempty).2 c hc
  rw [keyText_of_field? hv, keyText_of_field? hv'] at htext
  have holds := h.typed _ _ _ ((h.fieldType?_eq c.property).trans ht) hv
  have holds' := h'.typed _ _ _ ((h'.fieldType?_eq c.property).trans ht) hv'
  rw [hv, hv', FieldType.eq_of_text identity holds' holds (Value.isNull_eq_false hempty')
    (Value.isNull_eq_false hempty) (String.toList_injective htext)]

/-- The text of a key column has a delimiter in it only if it is that of a text. -/
theorem notMem_keyText (hmap : map.HasIdentity) (h : map.Identifies r) {c : ColumnDef}
    (hc : c ∈ map.keyColumns) {d : Char} (hd : d ∈ [';', '='])
    (htext : ∀ s, r.field? c.property = some (.varchar (some s)) → d ∉ s.toList) :
    d ∉ keyText r c := by
  obtain ⟨t, ht, identity⟩ := hmap c hc
  obtain ⟨v, hv, -⟩ := (hasEmptyKey_eq_false.mp h.nonempty).2 c hc
  rw [keyText_of_field? hv]
  by_cases hs : ∃ s, v = .varchar (some s)
  · obtain ⟨s, rfl⟩ := hs
    exact htext s hv
  · refine FieldType.delimiter_notMem_text identity
      (h.typed _ _ _ ((h.fieldType?_eq c.property).trans ht) hv) (fun s hv => hs ⟨s, hv⟩) hd

/-- Records that are kept apart have the same key when they have the same identity. -/
theorem sameKey_of_keyString (hmap : map.HasIdentity) {P : Record → Prop} (hP : map.Separates P)
    (hr : P r) (hr' : P r') (h : map.Identifies r) (h' : map.Identifies r')
    (heq : map.keyString r' = map.keyString r) : map.SameKey r r' := by
  rw [keyString_eq h.nonempty, keyString_eq h'.nonempty] at heq
  have text : map.identityText r' = map.identityText r :=
    String.ofList_injective (Except.ok.inj heq)
  obtain ⟨front, c, back, hcolumns, separates⟩ := hP
  suffices ∀ d ∈ front ++ c :: back, keyText r' d = keyText r d by
    intro d hd
    exact field?_eq_of_keyText hmap h h' hd (this d (hcolumns ▸ hd))
  have among : ∀ d ∈ front ++ c :: back, d ∈ map.keyColumns := fun d hd => hcolumns ▸ hd
  by_cases hsingle : front = [] ∧ back = []
  · obtain ⟨rfl, rfl⟩ := hsingle
    simpa [identityText, hcolumns] using text
  · have composite : ∀ s : Record, map.identityText s =
        Text.pairs (fun c => c.name.toList) (keyText s) (front ++ c :: back) := by
      intro s
      unfold identityText
      rw [hcolumns]
      split
      next d hd => exact absurd (by cases front <;> cases back <;> simp_all) hsingle
      next => rfl
    rw [composite, composite] at text
    refine Text.eq_of_pairs (fun d hd => ?_) (fun d hd => ?_) text
    · have hd' := among d (by simp [hd])
      exact ⟨notMem_keyText hmap h' hd' (by simp) ((separates r' hr').1 d hd),
        notMem_keyText hmap h hd' (by simp) ((separates r hr).1 d hd)⟩
    · have hd' := among d (by simp [hd])
      exact ⟨notMem_keyText hmap h' hd' (by simp) ((separates r' hr').2 d hd),
        notMem_keyText hmap h hd' (by simp) ((separates r hr).2 d hd)⟩

end EntityMap

end GraphStore
