import RowStream.Join.Matching
import RowStream.Stream.Cursor

/-!
# `RowStream.Join.NestedLoop` — one pass over the right side for every left row

## Contents
- `Join.nestedLoop` — the rows in the order of the left side, and of the right side for each left
  row.
-/

namespace RowStream.Join

variable {σ τ : Type} [Cursor σ] [Cursor τ]

/-- One pass over the right side, which adds the rows that pair up with `left`. -/
def scanRight (p : Predicate) (schema : Schema) (out : Array Row) (left : Row) :
    Call τ (Array Row) := do
  Cursor.rewind
  Cursor.fold (fun out right =>
    .ok (if p.holds left right then out.push (left.append right schema) else out)) out

/-- Reads the left side once, and the right side once for every left row. -/
def nestedLoop (p : Predicate) (schema : Schema) : Call (σ × τ) (List Row) := do
  Call.onLeft Cursor.rewind
  let out ← Cursor.foldWith (scanRight p schema) #[]
  return out.toList

end RowStream.Join
