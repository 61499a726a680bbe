import GraphStore.Proofs.Outcome
import GraphStore.Sqlite.Connection

/-!
# The row that was inserted last

A row is inserted under a rowid, which is also its cell in the column that stands for the rowid, and
the world remembers the last one (`InsertPlan.lastRowid_of_insertRow`). A query of its own asks for
it (`run_lastRowid`).
-/

set_option autoImplicit false

namespace GraphStore.Sqlite

namespace Change

variable {α β : Type} {w w' : World}

theorem ends_of_ofExcept {x : Except Fault α} {a : α} (h : ofExcept x w = .ok a w') :
    x = .ok a ∧ w' = w := by
  cases x with
  | error f => cases h
  | ok b =>
      cases h
      exact ⟨rfl, rfl⟩

theorem ends_of_table {name : String} {t : Table} (h : table name w = .ok t w') :
    t = (w.database.table? name).getD default ∧ w' = w := by
  cases h
  exact ⟨rfl, rfl⟩

theorem ends_of_frame {params : List Cell} {row : RowView} {f : Frame}
    (h : frame params row w = .ok f w') : w' = w := by
  cases h
  rfl

/-- Work that leaves the world as it is does so for all items of a list. -/
theorem world_of_mapM {f : α → Change β} (hf : ∀ a b w w', f a w = .ok b w' → w' = w) {xs : List α}
    {ys : List β} (h : xs.mapM f w = .ok ys w') : w' = w := by
  induction xs generalizing w ys with
  | nil =>
      rw [List.mapM_nil] at h
      exact (ends_of_pure h).2
  | cons x xs ih =>
      rw [List.mapM_cons] at h
      obtain ⟨y, w₁, hy, h⟩ := ends_of_bind h
      obtain ⟨rest, w₂, hrest, h⟩ := ends_of_bind h
      obtain ⟨-, rfl⟩ := ends_of_pure h
      rw [ih hrest, hf x y w w₁ hy]

/-- The column that stands for the rowid keeps its cell when nulls are checked. -/
theorem getElem?_of_checkNulls {rules : RowRules} {asked : Option Conflict}
    {params cells cells' : List Cell} {i : Nat}
    (hi : ((w.database.table? rules.table).getD default).rowidColumn = some i)
    (h : checkNulls rules asked params cells w = .ok (some cells') w') :
    cells'[i]? = cells[i]? := by
  unfold checkNulls at h
  obtain ⟨t, w₁, ht, h⟩ := ends_of_bind h
  obtain ⟨rfl, rfl⟩ := ends_of_table ht
  obtain ⟨checked, w₂, hloop, h⟩ := ends_of_bind h
  -- the loop ends early only where the row is left out
  let Kept (s : Option (Option (List Cell)) × List Cell) : Prop :=
    s.1.join = none ∧ s.2[i]? = cells[i]?
  have kept : Kept checked := by
    refine keeps_of_forIn (P := Kept) (fun x s u r u' hs hr => ?_) ⟨rfl, rfl⟩ hloop
    obtain ⟨c, k⟩ := x
    have same : Kept (none, s.2) := ⟨rfl, hs.2⟩
    dsimp only at hr
    split at hr
    next hnull =>
      have other : k ≠ i := by
        rintro rfl
        simp [hi] at hnull
      cases hnotNull : c.notNull with
      | none =>
          rw [hnotNull] at hr
          obtain ⟨rfl, -⟩ := ends_of_pure hr
          exact same
      | some own =>
          rw [hnotNull] at hr
          dsimp only at hr
          cases hconflict : asked.getD own with
          | ignore =>
              rw [hconflict] at hr
              obtain ⟨rfl, -⟩ := ends_of_pure hr
              exact ⟨rfl, hs.2⟩
          | replace =>
              rw [hconflict] at hr
              obtain ⟨f, u₁, -, hr⟩ := ends_of_bind hr
              obtain ⟨value, u₂, -, hr⟩ := ends_of_bind hr
              split at hr
              · obtain ⟨_, u₃, hbroken, -⟩ := ends_of_bind hr
                cases hbroken
              · obtain ⟨rfl, -⟩ := ends_of_pure hr
                exact ⟨rfl, (List.getElem?_set_ne other).trans hs.2⟩
          | _ =>
              rw [hconflict] at hr
              obtain ⟨_, u₁, hbroken, -⟩ := ends_of_bind hr
              cases hbroken
    next =>
      obtain ⟨rfl, -⟩ := ends_of_pure hr
      exact same
  obtain ⟨_ | out, kept₁⟩ := checked
  · obtain ⟨hcells, -⟩ := ends_of_pure h
    rw [Option.some.inj hcells]
    exact kept.2
  · obtain ⟨rfl, -⟩ := ends_of_pure h
    cases kept.1

/-- The column that stands for the rowid stores it. -/
theorem stored_rowidColumn {t : Table} {rowid : Int64} {cells : List Cell} {i : Nat} {c : Cell}
    (hi : t.rowidColumn = some i) (hc : (stored t rowid cells)[i]? = some c) :
    c = .integer rowid := by
  unfold stored at hc
  rw [List.getElem?_map, List.getElem?_zipIdx, Nat.zero_add] at hc
  cases hcell : cells[i]? with
  | none =>
      rw [hcell] at hc
      cases hc
  | some cell =>
      rw [hcell] at hc
      simpa [hi] using hc.symm

end Change

open Change in
/-- **The rowid of the row that was inserted is remembered**, and it is the cell of the column that
stands for the rowid. -/
theorem InsertPlan.lastRowid_of_insertRow {p : InsertPlan} {params given : List Cell}
    {last last' : Int64} {row : StoredRow} {w w' : World} (hupserts : p.upserts = [])
    (h : p.insertRow params given last w = .ok (last', some row) w') :
    w'.lastRowid = row.rowid ∧ ∀ i c,
      ((w.database.table? p.rules.table).getD default).rowidColumn = some i →
      row.cells[i]? = some c → c = .integer row.rowid := by
  unfold insertRow at h
  obtain ⟨t, w₁, ht, h⟩ := ends_of_bind h
  obtain ⟨rfl, rfl⟩ := ends_of_table ht
  obtain ⟨f, w₂, hf, h⟩ := ends_of_bind h
  obtain rfl := ends_of_frame hf
  obtain ⟨cells, w₃, hcells, h⟩ := ends_of_bind h
  obtain rfl : w₃ = w₂ := by
    refine world_of_mapM (fun x c u u' hx => ?_) hcells
    obtain ⟨place, value⟩ := x
    dsimp only at hx
    split at hx
    · exact (ends_of_pure hx).2
    · exact (ends_of_ofExcept hx).2
  obtain ⟨asked, w₄, hasked, h⟩ := ends_of_bind h
  obtain ⟨-, rfl⟩ := ends_of_ofExcept hasked
  extract_lets stores at h
  obtain ⟨rowid, h⟩ : ∃ rowid, stores rowid w₄ = .ok (last', some row) w' := by
    cases asked with
    | some n =>
        obtain ⟨rowid, w₅, hrowid, h⟩ := ends_of_bind h
        obtain ⟨rfl, rfl⟩ := ends_of_pure hrowid
        exact ⟨_, h⟩
    | none =>
        obtain ⟨rowid, w₅, hrowid, h⟩ := ends_of_bind h
        obtain ⟨-, rfl⟩ := ends_of_ofExcept hrowid
        exact ⟨_, h⟩
  dsimp only [stores] at h
  obtain ⟨checked, w₆, hchecked, h⟩ := ends_of_bind h
  split at h
  next =>
    obtain ⟨hrow, -⟩ := ends_of_pure h
    cases hrow
  next cells' =>
    obtain ⟨holds, w₇, -, h⟩ := ends_of_bind h
    split at h
    next =>
      obtain ⟨hrow, -⟩ := ends_of_pure h
      cases hrow
    next =>
      have none_met : ∀ t rowid cells, p.met? t rowid cells = none := by
        intro t rowid cells
        rw [met?, hupserts]
        rfl
      rw [none_met] at h
      dsimp only at h
      obtain ⟨free, w₈, -, h⟩ := ends_of_bind h
      split at h
      next =>
        obtain ⟨hrow, -⟩ := ends_of_pure h
        cases hrow
      next =>
        obtain ⟨t', w₉, -, h⟩ := ends_of_bind h
        obtain ⟨_, w₁₀, -, h⟩ := ends_of_bind h
        obtain ⟨_, w₁₁, hlast, h⟩ := ends_of_bind h
        obtain ⟨_, w₁₂, hcount, h⟩ := ends_of_bind h
        obtain ⟨hrow, rfl⟩ := ends_of_pure h
        cases hrow
        cases hlast
        cases hcount
        refine ⟨rfl, fun i c hi hc => ?_⟩
        rw [getElem?_of_checkNulls hi hchecked] at hc
        exact stored_rowidColumn hi hc

/-- **The query for the last rowid gives it**, in every state of the connection, and changes
nothing. -/
theorem run_lastRowid (l : Link) : connection.run ⟨"SELECT last_insert_rowid();", []⟩ l =
    { value := [.ok (.row ⟨["last_insert_rowid()"], [.int64 (some l.world.lastRowid)]⟩)]
      state := l } := by
  with_unfolding_all rfl

end GraphStore.Sqlite
