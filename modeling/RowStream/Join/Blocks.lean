import RowStream.Join.Matching
import RowStream.Memory.Block
import RowStream.Stream.Cursor

/-!
# `RowStream.Join.Blocks` — blocks of left rows against blocks of right rows

The left side is read once, block by block. Each full block, and the last one if it has any rows,
is joined with the right side, which is read through a block of its own: each of its blocks is
joined with the left block as soon as it is full, and the last one if it has any rows.

## Contents
- `BlockStats` — what the join did with its blocks.
- `Join.BlockRun` — the blocks, the rows found so far, and the counts.
- `Join.joinBlocks`, `Join.drainRight`, `Join.pushLeft` — joining two blocks, one pass over the
  right side, and one more left row.
- `Join.blockNestedLoop` — the whole join.
-/

namespace RowStream

/-- What a block join did with its blocks. -/
structure BlockStats where
  /-- The rows that a left block has room for. -/
  leftBlockRows : Nat
  /-- The rows that a right block has room for. -/
  rightBlockRows : Nat
  /-- The most rows that a left block held. -/
  peakLeftRows : Nat
  /-- The most rows that a right block held. -/
  peakRightRows : Nat
  /-- The left blocks that were joined. -/
  leftBlocks : Nat
  /-- The right blocks that were joined. -/
  rightBlocks : Nat
  /-- The passes over the right side. -/
  rightScans : Nat
  deriving DecidableEq, Repr

namespace Join

variable {σ τ : Type} [Cursor σ] [Cursor τ]

/-- A block join on its way. -/
structure BlockRun where
  /-- The left rows that are not yet joined. -/
  left : Block Row
  /-- The right rows that are not yet joined with the left block. -/
  right : Block Row
  /-- The rows found so far. -/
  out : Array Row := #[]
  /-- The left blocks so far; each of them costs one pass over the right side. -/
  leftBlocks : Nat := 0
  /-- The right blocks so far. -/
  rightBlocks : Nat := 0

namespace BlockRun

/-- What was done so far. -/
def stats (run : BlockRun) : BlockStats where
  leftBlockRows := run.left.capacity
  rightBlockRows := run.right.capacity
  peakLeftRows := run.left.peak.level
  peakRightRows := run.right.peak.level
  leftBlocks := run.leftBlocks
  rightBlocks := run.rightBlocks
  rightScans := run.leftBlocks

/-- Joins the two blocks and empties the right one. -/
def joinBlocks (p : Predicate) (schema : Schema) (run : BlockRun) : BlockRun :=
  { run with
    out := run.out ++ p.join schema run.left.rows.toList run.right.rows.toList
    rightBlocks := run.rightBlocks + 1
    right := run.right.reset }

/-- One more right row; a full right block is joined. -/
def pushRight (p : Predicate) (schema : Schema) (run : BlockRun) (row : Row) :
    Except StreamError BlockRun := do
  let right ← (run.right.push row).mapError .ofMemory
  let run := { run with right }
  return if right.isFull then run.joinBlocks p schema else run

/-- One pass over the right side, which joins all of it with the left block and empties that. -/
def drainRight (p : Predicate) (schema : Schema) (run : BlockRun) : Call τ BlockRun := do
  Cursor.rewind
  let run ← Cursor.fold (pushRight p schema) { run with leftBlocks := run.leftBlocks + 1 }
  let run := if run.right.rows.isEmpty then run else run.joinBlocks p schema
  return { run with left := run.left.reset }

/-- One more left row; a full left block is joined with the right side. -/
def pushLeft (p : Predicate) (schema : Schema) (run : BlockRun) (row : Row) :
    Call τ BlockRun := do
  let left ← Call.ofExcept ((run.left.push row).mapError .ofMemory)
  let run := { run with left }
  if left.isFull then run.drainRight p schema else return run

end BlockRun

/-- Reads the left side once, and the right side once for every left block. -/
def blockNestedLoop (p : Predicate) (schema : Schema) (left right : Block Row) :
    Call (σ × τ) (List Row × BlockStats) := do
  Call.onLeft Cursor.rewind
  let run ← Cursor.foldWith (BlockRun.pushLeft p schema) ({ left, right } : BlockRun)
  let run ← if run.left.rows.isEmpty then pure run else Call.onRight (run.drainRight p schema)
  return (run.out.toList, run.stats)

end Join

end RowStream
