import RowStream.Stream.Call

/-!
# `RowStream.Stream.Cursor` — streams of rows

A stream is a state with six calls: it is started, asked whether there is a next row, asked for it,
rewound and closed, and it has a schema at any time. Besides, it has a bound on the rows that can
still come, which shrinks with every row, so that reading a stream to its end is a recursion on
that bound.

## Contents
- `Cursor` — the calls and the bound.
- `Cursor.foldFrom`, `Cursor.foldWith` — reading a stream to its end, with a call on another state
  for every row.
- `Cursor.fold`, `Cursor.drain` — the same with a pure step, and with all rows as the answer.
-/

namespace RowStream

/-- The states of type `σ` are streams of rows. -/
class Cursor (σ : Type) where
  /-- The columns of the rows. -/
  schema : σ → Schema
  /-- Opens the stream, which must be closed. -/
  start : Call σ Unit
  /-- Whether there is a next row. -/
  hasNext : Call σ Bool
  /-- The next row. -/
  next : Call σ Row
  /-- Goes back to the first row; the stream must be open. -/
  rewind : Call σ Unit
  /-- Closes the stream, whatever its state. -/
  close : σ → σ
  /-- A bound on the rows that can still come. -/
  remaining : PageStore → σ → Nat
  /-- Looking for a row brings no new ones. -/
  remaining_hasNext (store : PageStore) (s : σ) :
    remaining store (hasNext store s).state ≤ remaining store s
  /-- Every row lowers the bound. -/
  remaining_next (store : PageStore) (s : σ) (row : Row) :
    (next store s).result = .ok row → remaining store (next store s).state < remaining store s

namespace Cursor

variable {σ τ β : Type} [Cursor σ]

/-- Reads the first of two states to its end. For every row, `step` takes what came of the rows
before and may work on the second state; the first failure of either ends the reading. -/
def foldFrom (step : β → Row → Call τ β) (b : β) (store : PageStore) (s : σ × τ) :
    Outcome (σ × τ) β :=
  let more := hasNext store s.1
  match more.result with
  | .error e => { result := .error e, state := (more.state, s.2), reads := more.reads }
  | .ok false => { result := .ok b, state := (more.state, s.2), reads := more.reads }
  | .ok true =>
    let row := next store more.state
    match _h : row.result with
    | .error e =>
      { result := .error e, state := (row.state, s.2), reads := more.reads ++ row.reads }
    | .ok r =>
      let done := step b r store s.2
      match done.result with
      | .error e =>
        { result := .error e, state := (row.state, done.state)
          reads := more.reads ++ row.reads ++ done.reads }
      | .ok b =>
        let rest := foldFrom step b store (row.state, done.state)
        { rest with reads := more.reads ++ row.reads ++ done.reads ++ rest.reads }
termination_by remaining store s.1
decreasing_by
  exact Nat.lt_of_lt_of_le (remaining_next store _ r _h) (remaining_hasNext store s.1)

/-- Reads the first of two states to its end. -/
def foldWith (step : β → Row → Call τ β) (b : β) : Call (σ × τ) β :=
  fun store s => foldFrom step b store s

/-- Reads a stream to its end, with a pure step for every row. -/
def fold (step : β → Row → Except StreamError β) (b : β) : Call σ β :=
  fun store s =>
    let o := foldWith (fun b row => Call.ofExcept (step b row)) b store (s, ())
    { o with state := o.state.1 }

/-- The rows that are still to come. -/
def drain : Call σ (List Row) := do
  let rows ← fold (fun rows row => .ok (rows.push row)) #[]
  return rows.toList

end Cursor

end RowStream
