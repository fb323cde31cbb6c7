import RowStream.Proofs.Row.Typed
import RowStream.Proofs.Store.Growth

/-!
# `RowStream.Proofs.Store.Stocked` — stores whose rows are what their columns say

A store compares the columns of a row with those of the table and takes the cells on trust. So its
rows are what their columns say if the rows are that it was given. No row ever leaves a store again:
what can be said of its rows could be said of them before.

## Contents
- `PageStore.Stocked`, `Furnished`, `stocked_of_made` — the stores of such rows, and those of rows that
  can be made, which are such rows.
- `Step.forall_rows`, `stocked_of_step`, `sound_of_step` — what can be said of the rows of a store now
  could be said of them before.
- `furnished_empty`, `furnished_createTable`, `furnished_insertAll` — filling a store with rows that can be
  made.
-/

namespace RowStream.PageStore

/-- Every row is what its own columns say. -/
def Stocked (s : PageStore) : Prop := ∀ t ∈ s.tables, ∀ row ∈ t.rows, row.Typed row.schema

/-- Every row can be made. -/
def Furnished (s : PageStore) : Prop := ∀ t ∈ s.tables, ∀ row ∈ t.rows, row.Made

variable {s s' : PageStore}

/-- Rows that can be made are what their columns say. -/
theorem stocked_of_made (h : s.Furnished) : s.Stocked := by
  intro t ht row hrow
  exact Row.typed_of_made (h t ht row hrow)

/-- A table keeps its columns and its rows, so what holds of the rows of all tables held of them
before. -/
theorem Step.forall_rows (hstep : s.Step s') {P : Schema → Row → Prop}
    (h : ∀ t ∈ s'.tables, ∀ row ∈ t.rows, P t.schema row) :
    ∀ t ∈ s.tables, ∀ row ∈ t.rows, P t.schema row := by
  intro t ht row hrow
  obtain ⟨i, hi, rfl⟩ := Array.mem_iff_getElem.1 ht
  have hfound : s.tables[i]? = some s.tables[i] := Array.getElem?_eq_getElem hi
  rcases hstep.tables i with ⟨t₀, t', ht₀, ht', hchange⟩ | ⟨hnone, -⟩
  · rw [hfound] at ht₀
    cases ht₀
    have hgrows := hchange.grows
    rw [← hgrows.schema_eq]
    exact h t' (Array.mem_of_getElem? ht') row (hgrows.rows_prefix.subset hrow)
  · rw [hfound] at hnone
    cases hnone

/-- A store of such rows was one before. -/
theorem stocked_of_step (hstep : s.Step s') (h : s'.Stocked) : s.Stocked :=
  hstep.forall_rows (P := fun _ row => row.Typed row.schema) h

/-- A sound store was sound before. -/
theorem sound_of_step (hstep : s.Step s') (h : s'.Sound) : s.Sound :=
  hstep.forall_rows (P := fun schema row => row.schema.Agrees schema) h

/-! ## Filling a store -/

theorem furnished_empty (pageRows : Nat) : (empty pageRows).Furnished := by
  intro t ht
  simp [empty] at ht

theorem furnished_createTable (h : s.Furnished) (name : String) (schema : Schema) :
    (s.createTable name schema).2.Furnished := by
  intro t ht row hrow
  rcases Array.mem_push.1 (show t ∈ s.tables.push _ from ht) with ht | rfl
  · exact h t ht row hrow
  · simp [Table.rows] at hrow

/-- A row that is put into a store is the row that it was, at another place. -/
theorem furnished_insert (h : s.Furnished) {table : TableId} {row : Row} {place : RecordId}
    (hrow : row.Made) (hinsert : s.insert table row = .ok (place, s')) : s'.Furnished := by
  obtain ⟨t, -, -, rfl⟩ := of_insert hinsert
  show ∀ t ∈ s.tables.modify table.number (·.append s.pageRows row), ∀ r ∈ t.rows, r.Made
  refine forall_mem_modify h fun t' _ hrows r hr => ?_
  rw [Table.rows_append] at hr
  rcases List.mem_append.1 hr with hr | hr
  · exact hrows r hr
  · rw [List.mem_singleton.1 hr]
    exact .place _ hrow

/-- Such rows that are put into a store one by one, up to the first that is not taken. -/
theorem furnished_insertAll (h : s.Furnished) (table : TableId) {rows : List Row}
    (hrows : ∀ row ∈ rows, row.Made) : (s.insertAll table rows).2.Furnished := by
  induction rows generalizing s with
  | nil => exact h
  | cons row rows ih =>
    unfold insertAll
    cases hinsert : s.insert table row with
    | ok added =>
      exact ih (furnished_insert h (hrows row List.mem_cons_self) hinsert)
        fun r hr => hrows r (List.mem_cons_of_mem _ hr)
    | error e => exact h

end RowStream.PageStore
