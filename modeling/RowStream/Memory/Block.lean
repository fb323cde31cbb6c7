import RowStream.Memory.Budget

/-!
# `RowStream.Memory.Block` — a buffer of a fixed number of rows

A block is as many rows as fit a number of bytes. Its bytes are reserved when it is made and held
until its reservation is given back; emptying it keeps them.

## Contents
- `Block`, `Block.rowsFor` — the type, and how many rows fit.
- `Block.build`, `Block.make` — reserving a block, in place and as what comes of it.
- `Block.put`, `Block.push`, `Block.reset` — adding a row, in place and as what comes of it, and starting
  again from the first.
- `Block.release` — giving the bytes back.
- `build_run`, `outcome_build`, `put_run` — when a block is refused and when a row is, and that this
  changes nothing.
- `rows_of_push` — a row that is accepted comes last.
-/

namespace RowStream

/-- A buffer of a fixed number of rows. -/
structure Block (α : Type) where
  /-- The rows that it holds now. -/
  rows : Array α := #[]
  /-- The number of rows that it has room for. -/
  capacity : Nat
  /-- The bytes that it holds of its budget. -/
  reservation : Reservation
  /-- The most rows that it ever held. -/
  peak : Peak := {}
  /-- What it is for. -/
  tag : String
  deriving DecidableEq, Repr

namespace Block

variable {α : Type}

/-- How many rows of `row` bytes fit `block` bytes, where a row takes at least one byte. -/
def rowsFor (block row : Nat) : Nat := block / max row 1

/-- Reserves a block of as many rows as fit, from the account that is at hand. -/
def build (block row : Nat) (tag : String) : InPlace MemoryError Budget (Block α) := do
  let capacity := rowsFor block row
  if capacity = 0 then throw (.rowTooWide tag block row)
  let reservation ← Budget.acquire (capacity * max row 1) tag
  return { capacity, reservation, tag }

/-- The block that is made, and the account after that. -/
def make (budget : Budget) (block row : Nat) (tag : String) :
    Except MemoryError (Block α × Budget) :=
  match (build block row tag).run budget with
  | .ok made budget => .ok (made, budget)
  | .error e _ => .error e

/-- Whether the block has no room left. -/
def isFull (b : Block α) : Bool := b.capacity ≤ b.rows.size

/-- Adds a row at the end of the block that is at hand, if there is room, and tells whether none is
left. -/
def put (row : α) : InPlace MemoryError (Block α) Bool := do
  let b ← get
  if b.isFull then throw (.blockFull b.tag b.capacity)
  modify fun b => { b with rows := b.rows.push row }
  modify fun b => { b with peak := b.peak.record b.rows.size }
  return (← get).isFull

/-- The block with one more row, if it takes it. -/
def push (b : Block α) (row : α) : Except MemoryError (Block α) :=
  match (put row).run b with
  | .ok _ b => .ok b
  | .error e _ => .error e

/-- The block without its rows. -/
def reset (b : Block α) : Block α := { b with rows := #[] }

/-- Gives the bytes of the block back. -/
def release (b : Block α) (budget : Budget) : Budget := budget.release b.reservation

/-! ## What is made and what is taken -/

/-- The block with one more row at the end. -/
def append (b : Block α) (row : α) : Block α :=
  let rows := b.rows.push row
  { b with rows, peak := b.peak.record rows.size }

/-- A block that is refused leaves the account as it was. -/
theorem build_run (block row : Nat) (tag : String) (b : Budget) :
    (build block row tag : InPlace MemoryError Budget (Block α)).run b =
      if rowsFor block row = 0 then .error (.rowTooWide tag block row) b
      else
        match b.reserve (rowsFor block row * max row 1) tag with
        | .ok (reservation, b) => .ok { capacity := rowsFor block row, reservation, tag } b
        | .error e => .error e b := by
  unfold build Budget.reserve
  by_cases hwide : rowsFor block row = 0
  · simp only [hwide, if_true]
    rfl
  · simp only [hwide, if_false, EStateM.run_bind, Budget.acquire_run]
    by_cases hrefused : 0 < rowsFor block row * max row 1 ∧
        b.capacity < Word.saturatingAdd b.used (rowsFor block row * max row 1)
    · simp only [hrefused, and_self, if_true]
    · simp only [hrefused, if_false]
      rfl

theorem make_eq_ite (b : Budget) (block row : Nat) (tag : String) :
    (make b block row tag : Except MemoryError (Block α × Budget)) =
      if rowsFor block row = 0 then .error (.rowTooWide tag block row)
      else (b.reserve (rowsFor block row * max row 1) tag).map fun g =>
        ({ capacity := rowsFor block row, reservation := g.1, tag }, g.2) := by
  unfold make
  rw [build_run]
  by_cases hwide : rowsFor block row = 0
  · rw [if_pos hwide, if_pos hwide]
  · rw [if_neg hwide, if_neg hwide]
    cases b.reserve (rowsFor block row * max row 1) tag <;> rfl

/-- Either a block is made, or the account is left as it was. -/
theorem outcome_build (block row : Nat) (tag : String) (b : Budget) :
    (build block row tag : InPlace MemoryError Budget (Block α)).outcome b =
      match make b block row tag with
      | .ok (made, b) => (.ok made, b)
      | .error e => (.error e, b) := by
  unfold make InPlace.outcome
  rw [build_run]
  by_cases hwide : rowsFor block row = 0
  · rw [if_pos hwide]
  · rw [if_neg hwide]
    cases b.reserve (rowsFor block row * max row 1) tag <;> rfl

/-- A full block refuses a row and stays as it was; any other takes it. -/
theorem put_run (row : α) (b : Block α) :
    (put row).run b =
      if b.isFull then .error (.blockFull b.tag b.capacity) b
      else .ok (b.append row).isFull (b.append row) := by
  unfold put
  by_cases hfull : b.isFull = true
  · simp only [EStateM.run_bind, EStateM.run_get, hfull, if_true]
    rfl
  · simp only [EStateM.run_bind, EStateM.run_get, hfull]
    rfl

theorem push_eq_ite (b : Block α) (row : α) :
    b.push row = if b.isFull then .error (.blockFull b.tag b.capacity) else .ok (b.append row) := by
  unfold push
  rw [put_run]
  by_cases hfull : b.isFull = true
  · rw [if_pos hfull, if_pos hfull]
  · rw [if_neg hfull, if_neg hfull]

/-- A row that is accepted comes last. -/
theorem rows_of_push {b b' : Block α} {row : α} (h : b.push row = .ok b') :
    b'.rows.toList = b.rows.toList ++ [row] := by
  rw [push_eq_ite] at h
  by_cases hfull : b.isFull = true
  · rw [if_pos hfull] at h
    cases h
  · rw [if_neg hfull] at h
    cases h
    simp [append]

end Block

end RowStream
