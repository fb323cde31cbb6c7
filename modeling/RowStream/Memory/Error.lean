/-!
# `RowStream.Memory.Error` — why memory is refused

## Contents
- `MemoryError` — a budget that is used up, a block too small for one row, a block that is full.
- `MemoryError.message` — the message of each.
-/

namespace RowStream

/-- Why a request for memory, or for room in a block, is refused. -/
inductive MemoryError where
  /-- The bytes asked for do not fit what is left of the budget. -/
  | exceeded (tag : String) (requested capacity used : Nat)
  /-- One row is wider than the whole block. -/
  | rowTooWide (tag : String) (block row : Nat)
  /-- The block holds as many rows as it can. -/
  | blockFull (tag : String) (capacity : Nat)
  deriving DecidableEq, Repr

namespace MemoryError

/-- The message of the error. -/
def message : MemoryError → String
  | exceeded tag requested capacity used =>
    s!"memory budget exceeded for tag '{tag}': requested {requested} bytes, " ++
      s!"capacity {capacity}, used {used}"
  | rowTooWide tag block row =>
    s!"block budget of {block} bytes cannot hold one {row}-byte row (tag '{tag}')"
  | blockFull tag capacity => s!"block '{tag}' is full ({capacity} rows)"

end MemoryError

end RowStream
