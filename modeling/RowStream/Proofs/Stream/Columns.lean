import RowStream.Proofs.Row.Conforms
import RowStream.Proofs.Stream.Leaves
import RowStream.Proofs.Stream.Reread

/-!
# `RowStream.Proofs.Stream.Columns` — columns of integers at hand

Rows at hand are the simplest streams there are, and one column of integers, of which some are absent,
is enough to see what operators do with values and without them.

## Contents
- `Materialized.collect_eq`, `Materialized.redrains` — what is read of rows at hand.
- `Stream.columnRows`, `Stream.openColumn` — the rows of a column, and an open stream of them.
-/

namespace RowStream

open Call

namespace Materialized

/-- Of rows at hand, these rows are collected. -/
theorem collect_eq (store : PageStore) (schema : Schema) (rows : List Row) :
    (Cursor.collect store ({ schema, rows } : Materialized)).result = .ok rows := by
  have hclosed : (profile { schema, rows }).closed { schema, rows } := rfl
  exact (profile_holds { schema, rows }).collect_of_opening hclosed rfl

/-- Open rows at hand are given again and again, wherever the stream stands. -/
theorem redrains (store : PageStore) (schema : Schema) (rows pending : List Row) :
    Cursor.Redrains store rows ({ schema, rows, pending := some pending } : Materialized) := by
  have hplays : Cursor.Plays store schema ⟨rows, none⟩ (profile { schema, rows }).shows :=
    plays { schema, rows }
  exact hplays.redrains ⟨⟨pending, none⟩, rfl, rfl⟩

end Materialized

namespace Stream

/-- The rows of a column of integers, of which some may be absent. -/
def columnRows (cells : List (Option Int64)) : List Row :=
  cells.map fun cell => { schema := .ofTypes [.int], cells := [cell.map .int] }

theorem conforms_columnRows (cells : List (Option Int64)) :
    ∀ row ∈ columnRows cells, row.Conforms (.ofTypes [.int]) := by
  intro row hrow
  obtain ⟨cell, -, rfl⟩ := List.mem_map.1 hrow
  refine ⟨rfl, fun {index v} hv => ?_⟩
  cases index with
  | zero =>
    cases cell with
    | none => cases hv
    | some i => cases hv; rfl
  | succ index => cases hv

/-- An open column of integers at hand, before its first row. -/
def openColumn (cells : List (Option Int64)) : Materialized where
  schema := .ofTypes [.int]
  rows := columnRows cells
  pending := some (columnRows cells)

theorem redrains_openColumn (store : PageStore) (cells : List (Option Int64)) :
    Cursor.Redrains store (columnRows cells) (openColumn cells) :=
  Materialized.redrains store _ _ _

end Stream

end RowStream
