import RowStream.Proofs.Value.Order
import RowStream.Row

/-!
# `RowStream.Join.Sorting` — rows in ascending order of their join values

Nothing is said about the order of rows of one value after sorting: a way to sort is whatever puts the
values in ascending order and keeps the rows. The sorted join is given one.

## Contents
- `Join.Keyed`, `Join.keyed?` — rows with their join value.
- `Join.Sorted`, `Join.Sorts`, `Join.Sorting` — ascending values, and the ways to get there.
- `Join.sortRows`, `sorted_sortRows`, `sortRows_perm` — the rows with a join value, sorted by it.
- `Join.stableSort`, `sorts_stableSort` — one way to sort.
-/

namespace RowStream.Join

/-- A row with its join value. -/
abbrev Keyed : Type := Value × Row

/-- The row with its value at `field`, if that is present. -/
def keyed? (field : Nat) (row : Row) : Option Keyed := (row.get? field).map (·, row)

/-- The values ascend. -/
def Sorted (rows : List Keyed) : Prop := rows.Pairwise fun a b => (a.1.order b.1).isLE

/-- The rows are sorted, and none is lost, made up or changed. -/
structure Sorts (sort : List Keyed → List Keyed) (rows : List Keyed) : Prop where
  /-- The values ascend. -/
  sorted : Sorted (sort rows)
  /-- The rows are the same. -/
  perm : (sort rows).Perm rows

/-- A way to sort rows by their values. -/
class Sorting where
  /-- The rows in ascending order of their values. -/
  sort : List Keyed → List Keyed
  /-- All rows are sorted so. -/
  sorts : ∀ rows, Sorts sort rows

/-- The rows that have a value at `field`, in ascending order of it. -/
def sortRows [Sorting] (field : Nat) (rows : List Row) : List Keyed :=
  Sorting.sort (rows.filterMap (keyed? field))

/-- Rows are sorted by their values. -/
theorem sorted_sortRows [Sorting] (field : Nat) (rows : List Row) : Sorted (sortRows field rows) :=
  (Sorting.sorts _).sorted

/-- Sorting drops the rows without a value and no others. -/
theorem sortRows_perm [Sorting] (field : Nat) (rows : List Row) :
    (sortRows field rows).Perm (rows.filterMap (keyed? field)) := (Sorting.sorts _).perm

/-- Sorting makes up no row. -/
theorem mem_of_sortRows [Sorting] {field : Nat} {rows : List Row} {row : Row}
    (h : row ∈ (sortRows field rows).map (·.2)) : row ∈ rows := by
  rw [((sortRows_perm field rows).map _).mem_iff] at h
  obtain ⟨w, hw, rfl⟩ := List.mem_map.1 h
  obtain ⟨row, hrow, hkey⟩ := List.mem_filterMap.1 hw
  obtain ⟨v, -, rfl⟩ := Option.map_eq_some_iff.1 hkey
  exact hrow

/-! ## The stable way -/

/-- Sorted by values, where the rows of one value stay in their order. -/
def stableSort (rows : List Keyed) : List Keyed := rows.mergeSort fun a b => (a.1.order b.1).isLE

theorem sorts_stableSort (rows : List Keyed) : Sorts stableSort rows where
  sorted := by
    have htrans : ∀ a b c : Keyed, (a.1.order b.1).isLE = true → (b.1.order c.1).isLE = true →
        (a.1.order c.1).isLE = true := fun a b c hab hbc => Std.TransCmp.isLE_trans hab hbc
    have htotal : ∀ a b : Keyed, ((a.1.order b.1).isLE || (b.1.order a.1).isLE) = true := by
      intro a b
      rw [Value.order_swap b.1 a.1]
      cases a.1.order b.1 <;> rfl
    exact List.pairwise_mergeSort htrans htotal rows
  perm := List.mergeSort_perm rows _

/-- The way to sort where no other is given. -/
instance stableSorting : Sorting where
  sort := stableSort
  sorts := sorts_stableSort

end RowStream.Join
