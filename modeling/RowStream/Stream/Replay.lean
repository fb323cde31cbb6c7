import RowStream.Stream.Error

/-!
# `RowStream.Stream.Replay` — handing out rows that are at hand

A stream that has its rows at hand is either closed, or open with the rows that are still to come.

## Contents
- `Replay` — the state of such a stream.
- `Replay.hasNext`, `Replay.next` — looking for a row and taking it.
- `Replay.remaining`, `remaining_next` — the number of rows to come, which goes down by one with
  every row that is taken.
-/

namespace RowStream

/-- The rows that are still to come, or `none` while the stream is closed. -/
abbrev Replay : Type := Option (List Row)

namespace Replay

/-- Whether a row is left. -/
def hasNext (kind : StreamKind) : Replay → Except StreamError Bool
  | none => .error (.usage (.notOpen kind))
  | some rows => .ok !rows.isEmpty

/-- The next row, and the state without it. -/
def next (kind : StreamKind) : Replay → Except StreamError (Row × Replay)
  | none => .error (.usage (.notOpen kind))
  | some [] => .error .exhausted
  | some (row :: rows) => .ok (row, some rows)

/-- The number of rows to come. -/
def remaining : Replay → Nat
  | none => 0
  | some rows => rows.length

theorem remaining_next {kind : StreamKind} {r r' : Replay} {row : Row}
    (h : r.next kind = .ok (row, r')) : r'.remaining < r.remaining := by
  match r with
  | none => cases h
  | some [] => cases h
  | some (_ :: rows) => cases h; exact Nat.lt_succ_self rows.length

end Replay

end RowStream
