import RowStream.Join.Matching
import RowStream.Stream.Cursor
import Std.Data.HashMap

/-!
# `RowStream.Join.HashTable` — the left rows in a table, looked up by the right rows

## Contents
- `Join.Buckets`, `Join.addRow` — the left rows by their join value, in their order.
- `getD_addRow` — what adding a row does to each bucket.
- `Join.probe` — the partners of a right row.
- `Join.hash` — the whole join, for equality only.
-/

namespace RowStream.Join

variable {σ τ : Type} [Cursor σ] [Cursor τ]

/-- The rows that have a join value, by that value. -/
abbrev Buckets : Type := Std.HashMap Value (Array Row)

/-- Puts a row behind the others of its value; a row without one can never be looked up. -/
def addRow (field : Nat) (buckets : Buckets) (row : Row) : Buckets :=
  match row.get? field with
  | some key => buckets.alter key fun rows => some ((rows.getD #[]).push row)
  | none => buckets

/-- A row comes last in the bucket of its value and in no other. -/
theorem getD_addRow (field : Nat) (buckets : Buckets) (row : Row) (key : Value) :
    (addRow field buckets row).getD key #[] =
      if row.get? field = some key then (buckets.getD key #[]).push row
      else buckets.getD key #[] := by
  simp only [addRow]
  cases h : row.get? field with
  | none => simp
  | some v =>
    rw [Std.HashMap.getD_alter]
    by_cases hv : v = key <;> simp [hv, Std.HashMap.getD_eq_getD_getElem?]

/-- The rows of the table whose value is that of `right` at `field`. -/
def probe (field : Nat) (buckets : Buckets) (right : Row) : Array Row :=
  match right.get? field with
  | some key => buckets.getD key #[]
  | none => #[]

/-- Reads both sides once; the right side is left alone if no left row has a join value. -/
def hash (p : Predicate) (schema : Schema) : Call (σ × τ) (List Row) := do
  if p.op = .eq then
    Call.onLeft Cursor.rewind
    let buckets ← Call.onLeft
      (Cursor.fold (fun buckets row => .ok (addRow p.leftField buckets row)) ∅)
    if buckets.isEmpty then return []
    else
      Call.onRight Cursor.rewind
      let out ← Call.onRight (Cursor.fold (fun out right =>
        .ok (out ++ (probe p.rightField buckets right).map (·.append right schema))) #[])
      return out.toList
  else Call.fail (.setting (.hashNeedsEquality p.op))

end RowStream.Join
