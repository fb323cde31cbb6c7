import RowStream.Stream.Cursor
import RowStream.Stream.Replay

/-!
# `RowStream.Stream.Materialized` — rows at hand as a stream

## Contents
- `Materialized` — rows with their schema, and what is still to come of them.
- Its calls as a `Cursor`: none of them asks the store for anything.
-/

namespace RowStream

/-- Rows at hand, under a schema that describes them. -/
structure Materialized where
  /-- The schema. -/
  schema : Schema
  /-- All rows. -/
  rows : List Row
  /-- The rows that are still to come while the stream is open. -/
  pending : Replay := none
  deriving DecidableEq, Repr

namespace Materialized

/-- Starts from the first row. -/
def start : Call Materialized Unit := do
  let s ← Call.get
  if s.pending.isSome then Call.fail (.usage (.alreadyOpen .materialized))
  else Call.modify fun s => { s with pending := some s.rows }

/-- Whether a row is left. -/
def hasNext : Call Materialized Bool := do
  let s ← Call.get
  Call.ofExcept (s.pending.hasNext .materialized)

/-- Takes the next row. -/
def next : Call Materialized Row := do
  let s ← Call.get
  let (row, pending) ← Call.ofExcept (s.pending.next .materialized)
  Call.modify fun s => { s with pending }
  return row

/-- Starts again from the first row. -/
def rewind : Call Materialized Unit := do
  let s ← Call.get
  if s.pending.isNone then Call.fail (.usage (.notOpen .materialized))
  else Call.modify fun s => { s with pending := some s.rows }

/-- Stops handing out rows. -/
def close (s : Materialized) : Materialized := { s with pending := none }

theorem state_hasNext (store : PageStore) (s : Materialized) : (hasNext store s).state = s := by
  simp only [hasNext, bind, Call.bind, Call.get, Call.ofExcept]

theorem remaining_next {store : PageStore} {s : Materialized} {row : Row}
    (h : (next store s).result = .ok row) :
    (next store s).state.pending.remaining < s.pending.remaining := by
  simp only [next, bind, Call.bind, Call.get, Call.ofExcept, Call.modify, pure, Call.pure] at h ⊢
  cases hn : s.pending.next .materialized with
  | error e => simp [hn] at h
  | ok taken => simpa [hn] using Replay.remaining_next hn

instance : Cursor Materialized where
  schema := schema
  start := start
  hasNext := hasNext
  next := next
  rewind := rewind
  close := close
  remaining _ s := s.pending.remaining
  remaining_hasNext store s :=
    Nat.le_of_eq (congrArg (·.pending.remaining) (state_hasNext store s))
  remaining_next _ _ _ h := remaining_next h

end Materialized

end RowStream
