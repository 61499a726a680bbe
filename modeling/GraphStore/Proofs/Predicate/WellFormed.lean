import GraphStore.Proofs.Predicate.Mentioned
import GraphStore.Proofs.Predicate.Paths
import GraphStore.Proofs.Sql.Written

/-!
# Well-formed predicates

A predicate is well-formed if each of its comparisons and calls is (`Model.Binds`): the path names
something, a comparison with null asks for presence, and a method is given what it takes. What
stands around these, negations among it, does not matter. The predicates that are accepted are the
well-formed ones, and the parameters of the fragment are those of the comparisons and calls from
left to right, numbered one after another (`compiles_exactly_wellFormed`). What is kept for every
part of a predicate is `Collects`.
-/

set_option autoImplicit false

namespace GraphStore

open Fragment

/-! ## Comparisons and calls -/

namespace Predicate

mutual

/-- The comparisons and calls of a predicate, from left to right. -/
def leaves : Predicate → List Predicate
  | compare op path v => [compare op path v]
  | logical _ ps => leavesOfEach ps
  | call method path argument => [call method path argument]
  | not p => leaves p
  | constant _ => []

def leavesOfEach : List Predicate → List Predicate
  | [] => []
  | p :: ps => leaves p ++ leavesOfEach ps

end

end Predicate

/-- The method takes the argument, and binds the values: a pattern for a text, or the items of a
list. -/
inductive Takes : String → Argument → List Value → Prop where
  | startsWith (text : String) :
      Takes "starts_with" (.value (.varchar (some text))) [.varchar (some (text ++ "%"))]
  | endsWith (text : String) :
      Takes "ends_with" (.value (.varchar (some text))) [.varchar (some ("%" ++ text))]
  | contains (text : String) :
      Takes "contains" (.value (.varchar (some text))) [.varchar (some ("%" ++ text ++ "%"))]
  | isIn (vs : List Value) : Takes "in" (.list vs) vs
  | isContained (vs : List Value) : Takes "contains" (.list vs) vs

theorem takes_text {method : String} (text : String) (h : isTextMethod method = true) :
    Takes method (.value (.varchar (some text))) [.varchar (some (likePattern method text))] := by
  simp only [isTextMethod, Bool.or_eq_true, beq_iff_eq] at h
  obtain (rfl | rfl) | rfl := h
  · exact .startsWith text
  · exact .endsWith text
  · exact .contains text

theorem takes_list {method : String} (vs : List Value) (h : isListMethod method = true) :
    Takes method (.list vs) vs := by
  simp only [isListMethod, Bool.or_eq_true, beq_iff_eq] at h
  obtain rfl | rfl := h
  · exact .isIn vs
  · exact .isContained vs

namespace Model

/-- The comparison or call is well-formed, and binds values for columns. -/
inductive Binds (m : Model) (map : EntityMap) : Predicate → List (String × Value) → Prop where
  | value {op : CompareOp} {path : String} {v : Value} {resolved : ResolvedPath}
      (names : m.Names map path resolved) (present : v.isNull = false) :
      Binds m map (.compare op path v) [(resolved.column.name, v)]
  | null {op : CompareOp} {path : String} {v : Value} {resolved : ResolvedPath}
      (names : m.Names map path resolved) (absent : v.isNull = true)
      (tests : op = .equal ∨ op = .notEqual) : Binds m map (.compare op path v) []
  | call {method path : String} {argument : Argument} {vs : List Value} {resolved : ResolvedPath}
      (names : m.Names map path resolved) (takes : Takes method argument vs) :
      Binds m map (.call method path argument) (vs.map (resolved.column.name, ·))

/-- All comparisons and calls of the predicate are well-formed. -/
def WellFormed (m : Model) (map : EntityMap) (p : Predicate) : Prop :=
  ∀ leaf ∈ p.leaves, ∃ bs, m.Binds map leaf bs

end Model

/-! ## Numbered parameters -/

/-- One parameter for each value, named by its column and the numbers from `n` on. -/
def numberedParams (n : UInt32) (bs : List (String × Value)) : List Param :=
  bs.zipIdx.map fun b => ⟨numberedName b.1.1 (n + .ofNat b.2), b.1.2⟩

@[simp] theorem numberedParams_nil (n : UInt32) : numberedParams n [] = [] := rfl

theorem numberedParams_cons (n : UInt32) (b : String × Value) (bs : List (String × Value)) :
    numberedParams n (b :: bs) = ⟨numberedName b.1 n, b.2⟩ :: numberedParams (n + 1) bs := by
  have first : n + UInt32.ofNat 0 = n := UInt32.add_zero n
  simp only [numberedParams, List.zipIdx_cons, List.zipIdx_succ, List.map_cons, List.map_map, first]
  refine congrArg (_ :: ·) (List.map_congr_left fun c _ => ?_)
  simp only [Function.comp_apply, count_succ]

theorem numberedParams_append (n : UInt32) (bs cs : List (String × Value)) :
    numberedParams n (bs ++ cs) =
      numberedParams n bs ++ numberedParams (n + .ofNat bs.length) cs := by
  induction bs generalizing n with
  | nil => exact congrArg (numberedParams · cs) (UInt32.add_zero n).symm
  | cons b bs ih =>
      rw [List.cons_append, numberedParams_cons, ih, numberedParams_cons, List.length_cons,
        count_succ, List.cons_append]

/-- The context after some more parameters. -/
def Context.past (context : Context) (n : Nat) : Context :=
  { context with counter := context.counter + .ofNat n }

@[simp] theorem Context.past_zero (context : Context) : context.past 0 = context :=
  congrArg (fun counter => { context with counter }) (UInt32.add_zero context.counter)

theorem Context.past_past (context : Context) (n k : Nat) :
    (context.past n).past k = context.past (n + k) := by
  simp only [past, UInt32.ofNat_add, UInt32.add_assoc]

/-- As long as 32 bits are enough, the counter goes on as a natural number. -/
theorem Context.toNat_counter_past {context : Context} {n k : Nat} (hn : n ≤ k)
    (hk : context.counter.toNat + k < 2 ^ 32) :
    (context.past n).counter.toNat = context.counter.toNat + n := by
  have small : n < 2 ^ 32 := by omega
  rw [past, UInt32.toNat_add, UInt32.toNat_ofNat_of_lt' small, Nat.mod_eq_of_lt (by omega)]

/-- As long as 32 bits are enough, parameters are named by natural numbers. -/
theorem names_numberedParams {context : Context} {bs : List (String × Value)}
    (h : context.counter.toNat + bs.length < 2 ^ 32) :
    (numberedParams context.counter bs).map (·.name) =
      bs.zipIdx.map fun b => b.1.1 ++ "_" ++ toString (context.counter.toNat + b.2) := by
  rw [numberedParams, List.map_map]
  refine List.map_congr_left fun b hb => ?_
  have below : b.2 ≤ bs.length := Nat.le_of_lt (List.snd_lt_of_mem_zipIdx hb)
  have count : (context.counter + .ofNat b.2).toNat = context.counter.toNat + b.2 :=
    Context.toNat_counter_past below h
  exact congrArg (fun n : Nat => b.1.1 ++ "_" ++ toString n) count

theorem bindParam_eq (column : String) (v : Value) (context : Context) :
    bindParam column v context =
      (ofParam ⟨numberedName column context.counter, v⟩, context.past 1) := rfl

theorem bindEach_eq (column : String) (vs : List Value) (context : Context) :
    bindEach column vs context =
      ((numberedParams context.counter (vs.map (column, ·))).map ofParam,
        context.past vs.length) := by
  induction vs generalizing context with
  | nil => exact congrArg (([], ·)) context.past_zero.symm
  | cons v vs ih =>
      rw [bindEach]
      simp only [bindParam_eq, ih, Context.past_past, List.length_cons, Nat.add_comm 1,
        List.map_cons, numberedParams_cons]
      rfl

namespace Model

variable {m : Model} {map : EntityMap} {f : Fragment} {context mid after : Context}

/-! ## Accepted predicates -/

/-- The parameters are those of the comparisons and calls, and the context is the one after
them. -/
def Collects (m : Model) (map : EntityMap) (leaves : List Predicate) (context : Context)
    (ps : List Param) (after : Context) : Prop :=
  ∃ bss, List.Forall₂ (m.Binds map) leaves bss ∧
    ps = numberedParams context.counter bss.flatten ∧ after = context.past bss.flatten.length

namespace Collects

variable {leaves leaves' : List Predicate} {ps ps' : List Param}

theorem nil (context : Context) : m.Collects map [] context [] context :=
  ⟨[], .nil, rfl, context.past_zero.symm⟩

theorem single {leaf : Predicate} {bs : List (String × Value)} (h : m.Binds map leaf bs)
    (context : Context) :
    m.Collects map [leaf] context (numberedParams context.counter bs) (context.past bs.length) := by
  refine ⟨[bs], .cons h .nil, ?_, ?_⟩ <;> rw [List.flatten_singleton]

/-- What binds one value has one parameter. -/
theorem one {leaf : Predicate} {column : String} {v : Value} (h : m.Binds map leaf [(column, v)])
    (context : Context) :
    m.Collects map [leaf] context [⟨numberedName column context.counter, v⟩] (context.past 1) := by
  have collected := single h context
  rwa [numberedParams_cons, numberedParams_nil] at collected

/-- The rest of a predicate goes on numbering. -/
theorem append (h : m.Collects map leaves context ps mid)
    (h' : m.Collects map leaves' mid ps' after) :
    m.Collects map (leaves ++ leaves') context (ps ++ ps') after := by
  obtain ⟨bss, hbss, rfl, rfl⟩ := h
  obtain ⟨bss', hbss', rfl, rfl⟩ := h'
  refine ⟨bss ++ bss', List.rel_append hbss hbss', ?_, ?_⟩
  · rw [List.flatten_append, numberedParams_append]
    rfl
  · rw [List.flatten_append, List.length_append, Context.past_past]

end Collects

theorem params_test (c : ColumnToken) (s : String) (p : Param) :
    (ofColumn c ++ ofText s ++ ofParam p).params = [p] := by simp

theorem collects_compileCompare {op : CompareOp} {path : String} {v : Value} {negated : Bool}
    (h : m.compileCompare map op path v negated context = .ok (f, after)) :
    m.Collects map [.compare op path v] context f.params after := by
  unfold compileCompare at h
  obtain ⟨resolved, hresolved, h⟩ := ok_of_bind h
  have names := resolve_eq_ok_iff.mp hresolved
  by_cases hv : v.isNull = true
  · simp only [hv, if_true] at h
    obtain ⟨test, htest, h⟩ := ok_of_bind h
    cases h
    -- negation leaves the two comparisons that ask for presence among themselves
    have tests : op = .equal ∨ op = .notEqual := by
      cases negated <;> cases op <;> first | exact .inl rfl | exact .inr rfl | cases htest
    simpa using Collects.single (.null names hv tests) context
  · rw [if_neg hv] at h
    cases h
    rw [Bool.not_eq_true] at hv
    rw [params_test]
    exact Collects.one (.value names hv) context

theorem collects_compileLike {method path text : String} {negated : Bool}
    (hmethod : isTextMethod method = true)
    (h : m.compileLike map path (likePattern method text) negated context = .ok (f, after)) :
    m.Collects map [.call method path (.value (.varchar (some text)))] context f.params after := by
  unfold compileLike at h
  obtain ⟨resolved, hresolved, h⟩ := ok_of_bind h
  cases h
  have leaf := Binds.call (resolve_eq_ok_iff.mp hresolved) (takes_text text hmethod)
  rw [params_test]
  exact Collects.one leaf context

theorem collects_compileIn {method path : String} {vs : List Value} {negated : Bool}
    (hmethod : isListMethod method = true)
    (h : m.compileIn map path vs negated context = .ok (f, after)) :
    m.Collects map [.call method path (.list vs)] context f.params after := by
  unfold compileIn at h
  obtain ⟨resolved, hresolved, h⟩ := ok_of_bind h
  have leaf := Binds.call (resolve_eq_ok_iff.mp hresolved) (takes_list vs hmethod)
  have collected := Collects.single leaf context
  split at h
  next hempty =>
    cases h
    obtain rfl := List.isEmpty_iff.mp hempty
    simpa using collected
  next =>
    cases h
    have flat : ∀ ps : List Param, (ps.map ofParam).flatMap params = ps := by
      intro ps
      simp [List.flatMap_map]
    simpa [bindEach_eq, params_joined, flat] using collected

theorem collects_compileCall {method path : String} {argument : Argument} {negated : Bool}
    (h : m.compileCall map method path argument negated context = .ok (f, after)) :
    m.Collects map [.call method path argument] context f.params after := by
  rcases compileCall_eq_ok.mp h with ⟨text, rfl, htext, h⟩ | ⟨vs, rfl, hlist, h⟩
  · exact collects_compileLike htext h
  · exact collects_compileIn hlist h

mutual

/-- The parameters of the fragment of a predicate are those of its comparisons and calls. -/
theorem collects_compileWith (p : Predicate) (negated : Bool) {f : Fragment}
    {context after : Context} (h : m.compileWith map p negated context = .ok (f, after)) :
    m.Collects map p.leaves context f.params after := by
  cases p with
  | compare op path v => exact collects_compileCompare h
  | logical op children =>
      rw [compileWith] at h
      obtain ⟨⟨fs, context₁⟩, hfs, h⟩ := ok_of_bind h
      cases h
      rw [params_connect]
      exact collects_compileEach children negated hfs
  | call method path argument => exact collects_compileCall h
  | not inner => exact collects_compileWith inner (!negated) h
  | constant v =>
      cases h
      rw [params_ofText]
      exact .nil context

theorem collects_compileEach (ps : List Predicate) (negated : Bool) {fs : List Fragment}
    {context after : Context} (h : m.compileEach map ps negated context = .ok (fs, after)) :
    m.Collects map (Predicate.leavesOfEach ps) context (fs.flatMap params) after := by
  cases ps with
  | nil =>
      cases h
      exact .nil context
  | cons p ps =>
      rw [compileEach] at h
      obtain ⟨⟨f, context₁⟩, hf, h⟩ := ok_of_bind h
      obtain ⟨⟨gs, context₂⟩, hgs, h⟩ := ok_of_bind h
      cases h
      exact (collects_compileWith p negated hf).append (collects_compileEach ps negated hgs)

end

/-! ## Well-formed predicates are accepted -/

theorem exists_compileCompare_of_binds {op : CompareOp} {path : String} {v : Value}
    {bs : List (String × Value)} (h : m.Binds map (.compare op path v) bs) (negated : Bool)
    (context : Context) :
    ∃ f after, m.compileCompare map op path v negated context = .ok (f, after) := by
  unfold compileCompare
  cases h with
  | value names present =>
      simp only [resolve_eq_ok_iff.mpr names, ok_bind, present, Bool.false_eq_true, if_false]
      exact ⟨_, _, rfl⟩
  | null names absent tests =>
      simp only [resolve_eq_ok_iff.mpr names, ok_bind, absent, if_true]
      rcases tests with rfl | rfl <;> cases negated <;> exact ⟨_, _, rfl⟩

theorem exists_compileCall_of_binds {method path : String} {argument : Argument}
    {bs : List (String × Value)} (h : m.Binds map (.call method path argument) bs) (negated : Bool)
    (context : Context) :
    ∃ f after, m.compileCall map method path argument negated context = .ok (f, after) := by
  cases h with
  | @call method path argument vs resolved names takes =>
      have found := resolve_eq_ok_iff.mpr names
      have like : ∀ pattern, ∃ f after,
          m.compileLike map path pattern negated context = .ok (f, after) := by
        intro pattern
        rw [compileLike, found, ok_bind]
        exact ⟨_, _, rfl⟩
      have among : ∀ vs, ∃ f after, m.compileIn map path vs negated context = .ok (f, after) := by
        intro vs
        rw [compileIn, found, ok_bind]
        split <;> exact ⟨_, _, rfl⟩
      cases takes with
      | startsWith text => exact like (likePattern "starts_with" text)
      | endsWith text => exact like (likePattern "ends_with" text)
      | contains text => exact like (likePattern "contains" text)
      | isIn => exact among vs
      | isContained => exact among vs

mutual

theorem exists_compileWith_of_wellFormed (p : Predicate)
    (h : ∀ leaf ∈ p.leaves, ∃ bs, m.Binds map leaf bs) (negated : Bool) (context : Context) :
    ∃ f after, m.compileWith map p negated context = .ok (f, after) := by
  cases p with
  | compare op path v =>
      obtain ⟨bs, hbs⟩ := h _ (List.mem_singleton_self _)
      exact exists_compileCompare_of_binds hbs negated context
  | logical op children =>
      obtain ⟨fs, after, hfs⟩ := exists_compileEach_of_wellFormed children h negated context
      rw [compileWith, hfs]
      exact ⟨_, _, rfl⟩
  | call method path argument =>
      obtain ⟨bs, hbs⟩ := h _ (List.mem_singleton_self _)
      exact exists_compileCall_of_binds hbs negated context
  | not inner => exact exists_compileWith_of_wellFormed inner h (!negated) context
  | constant v => exact ⟨_, _, rfl⟩

theorem exists_compileEach_of_wellFormed (ps : List Predicate)
    (h : ∀ leaf ∈ Predicate.leavesOfEach ps, ∃ bs, m.Binds map leaf bs) (negated : Bool)
    (context : Context) : ∃ fs after, m.compileEach map ps negated context = .ok (fs, after) := by
  cases ps with
  | nil => exact ⟨_, _, rfl⟩
  | cons p ps =>
      obtain ⟨hp, hps⟩ := List.forall_mem_append.mp h
      obtain ⟨f, mid, hf⟩ := exists_compileWith_of_wellFormed p hp negated context
      obtain ⟨fs, after, hfs⟩ := exists_compileEach_of_wellFormed ps hps negated mid
      simp only [compileEach, hf, ok_bind, hfs]
      exact ⟨_, _, rfl⟩

end

theorem WellFormed.of_compileWith {p : Predicate} {negated : Bool}
    (h : m.compileWith map p negated context = .ok (f, after)) : m.WellFormed map p := by
  intro leaf hleaf
  obtain ⟨bss, hbss, -, -⟩ := collects_compileWith p negated h
  obtain ⟨bs, -, hbs⟩ := exists_of_mem_forall₂ hbss.flip hleaf
  exact ⟨bs, hbs⟩

theorem wellFormed_iff {p : Predicate} (negated : Bool) (context : Context) :
    (∃ f after, m.compileWith map p negated context = .ok (f, after)) ↔ m.WellFormed map p :=
  ⟨fun ⟨_, _, h⟩ => .of_compileWith h, fun h =>
    exists_compileWith_of_wellFormed p h negated context⟩

/-- **The compiler accepts the well-formed predicates, and binds their values from left to right.**
Whether a predicate is accepted depends neither on the context nor on whether its negation is asked
for. The parameters of the fragment have the values that the comparisons and calls bind, each named
by its column and the next number, and the context has counted them. The numbers are those of 32
bits, so that they are natural numbers up to the last of these. -/
theorem compiles_exactly_wellFormed (m : Model) (map : EntityMap) (p : Predicate)
    (context : Context) :
    ((∃ f after, m.compile map p context = .ok (f, after)) ↔ m.WellFormed map p) ∧
    (∀ negated, (∃ f after, m.compileWith map p negated context = .ok (f, after)) ↔
      m.WellFormed map p) ∧
    ∀ f after, m.compile map p context = .ok (f, after) →
      ∃ bss, List.Forall₂ (m.Binds map) p.leaves bss ∧
        f.params = numberedParams context.counter bss.flatten ∧
        after = context.past bss.flatten.length ∧
        (context.counter.toNat + bss.flatten.length < 2 ^ 32 →
          f.params.map (·.name) = bss.flatten.zipIdx.map
            (fun b => b.1.1 ++ "_" ++ toString (context.counter.toNat + b.2)) ∧
          after.counter.toNat = context.counter.toNat + bss.flatten.length) := by
  refine ⟨wellFormed_iff false context, fun negated => wellFormed_iff negated context,
    fun f after h => ?_⟩
  obtain ⟨bss, bound, params, rfl⟩ := collects_compileWith p false h
  refine ⟨bss, bound, params, rfl, fun enough => ⟨?_, ?_⟩⟩
  · rw [params, names_numberedParams enough]
  · exact Context.toNat_counter_past (Nat.le_refl _) enough

/-- Negations inside the predicate, and a list with a null in it; three parameters have been named
before. -/
theorem compiles_exactly_wellFormed_books :
    let m := Sample.model none none
    let p : Predicate := .logical .and [
      .not (.logical .or [.compare .less "title" (.varchar (some "Ode")),
        .not (.call "contains" "author.name" (.value (.varchar (some "nn"))))]),
      .call "in" "author.born" (.list [.int32 (some 1815), .int32 none]),
      .compare .notEqual "author_id" .null]
    ∃ map f after, m.entityMap "sql::Book" = .ok map ∧ m.WellFormed map p ∧
      m.compile map p { counter := 3 } = .ok (f, after) ∧
      f.params = [⟨"title_3", .varchar (some "Ode")⟩, ⟨"name_4", .varchar (some "%nn%")⟩,
        ⟨"born_5", .int32 (some 1815)⟩, ⟨"born_6", .int32 none⟩] ∧
      ∃ bss, List.Forall₂ (m.Binds map) p.leaves bss ∧
        f.params = numberedParams 3 bss.flatten ∧
        after = Context.past { counter := 3 } bss.flatten.length := by
  intro m p
  have accepted := fun map => (compiles_exactly_wellFormed m map p { counter := 3 }).1
  have collected := fun map => (compiles_exactly_wellFormed m map p { counter := 3 }).2.2
  obtain ⟨map, f, after, hmap, hcompile, hparams⟩ : ∃ map f after,
      m.entityMap "sql::Book" = .ok map ∧ m.compile map p { counter := 3 } = .ok (f, after) ∧
      f.params = [⟨"title_3", .varchar (some "Ode")⟩, ⟨"name_4", .varchar (some "%nn%")⟩,
        ⟨"born_5", .int32 (some 1815)⟩, ⟨"born_6", .int32 none⟩] := ⟨_, _, _, rfl, rfl, rfl⟩
  obtain ⟨bss, bound, params, past, -⟩ := collected map f after hcompile
  exact ⟨map, f, after, hmap, (accepted map).mp ⟨f, after, hcompile⟩, hcompile, hparams, bss, bound,
    params, past⟩

end Model

end GraphStore
