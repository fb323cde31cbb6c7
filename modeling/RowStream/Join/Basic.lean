import RowStream.Config.Basic
import RowStream.Join.Blocks
import RowStream.Join.HashTable
import RowStream.Join.NestedLoop
import RowStream.Join.SortMerge
import RowStream.Stream.Replay

/-!
# `RowStream.Join.Basic` — the join of two streams

A join finds all its rows when it is opened or rewound, by the strategy it has at that moment, and
then hands them out. If anything fails on the way, the join and both its children are closed. How the
strategy that sorts its sides sorts them is given.

## Contents
- `Join` — the state.
- `Join.make`, `Join.setChildren` — joining two streams, and joining two others instead.
- `Join.compute`, `Join.materialize` — finding the rows, and keeping them.
- Its calls as a `Cursor`.
-/

namespace RowStream

/-- The join of a stream `σ` with a stream `τ`. -/
structure Join (σ τ : Type) where
  /-- The condition on a left and a right row. -/
  predicate : Predicate
  /-- The columns of the left side, then those of the right side. -/
  schema : Schema
  /-- The way to find the rows. -/
  strategy : Strategy
  /-- The size of each of the two blocks of a block join, in bytes. -/
  bufferBytes : Nat
  /-- Where the blocks are reserved. -/
  budget : Budget
  /-- The left side. -/
  left : σ
  /-- The right side. -/
  right : τ
  /-- The rows that are still to come while the join is open. -/
  pending : Replay := none
  /-- What the last block join did. -/
  stats : Option BlockStats := none

namespace Join

variable {σ τ σ' τ' α : Type}

/-- Refuses a condition that names a column that its side does not have; the left side is looked at
first. -/
def checkFields (p : Predicate) (left right : Schema) : Except StreamError Unit :=
  if left.width ≤ p.leftField then .error (.predicateField p p.leftField)
  else if right.width ≤ p.rightField then .error (.predicateField p p.rightField)
  else .ok ()

section Building

variable [Cursor σ] [Cursor τ] [Cursor σ'] [Cursor τ']

/-- The closed join of two streams. Its budget has room for two blocks of the full buffer. -/
def make (config : Config) (account : Nat) (p : Predicate) (left : σ) (right : τ) :
    Except StreamError (Join σ τ) := do
  config.validate.mapError .data
  checkFields p (Cursor.schema left) (Cursor.schema right)
  let budget : Budget := { account, capacity := Word.saturatingMul config.joinBufferBytes 2 }
  return {
    predicate := p
    schema := (Cursor.schema left).append (Cursor.schema right)
    strategy := config.strategy
    bufferBytes := config.joinBufferBytes
    budget, left, right }

/-- Refuses to replace the children of an open join. -/
def checkClosed (j : Join σ τ) : Except StreamError Unit :=
  if j.pending.isSome then .error (.usage .rebindOpenJoin) else .ok ()

/-- The join of two other streams, with everything else as it is. -/
def setChildren (j : Join σ τ) (left : σ') (right : τ') : Except StreamError (Join σ' τ') := do
  j.checkClosed
  checkFields j.predicate (Cursor.schema left) (Cursor.schema right)
  return { j with
    schema := (Cursor.schema left).append (Cursor.schema right)
    left, right }

end Building

/-! ## What a join tells of itself -/

section Inspection

variable [Cursor σ] [Cursor τ]

/-- The name of the left column of the condition, as the left side calls it. -/
def leftFieldName (j : Join σ τ) : Option String :=
  (Cursor.schema j.left).nameAt? j.predicate.leftField

/-- The name of the right column of the condition, as the right side calls it. -/
def rightFieldName (j : Join σ τ) : Option String :=
  (Cursor.schema j.right).nameAt? j.predicate.rightField

end Inspection

/-- The join with another way to find its rows, from the next time that it is opened or rewound. -/
def setStrategy (j : Join σ τ) (strategy : Strategy) : Join σ τ := { j with strategy }

/-- Takes bytes from the budget of the join. -/
def reserve (j : Join σ τ) (bytes : Nat) (tag : String) :
    Except MemoryError (Reservation × Join σ τ) := do
  let (reservation, budget) ← j.budget.reserve bytes tag
  return (reservation, { j with budget })

/-! ## Finding the rows -/

/-- A call on the left side. -/
def onLeft (c : Call σ α) : Call (Join σ τ) α :=
  Call.zoom Join.left (fun left j => { j with left }) c

/-- A call on the right side. -/
def onRight (c : Call τ α) : Call (Join σ τ) α :=
  Call.zoom Join.right (fun right j => { j with right }) c

/-- A call on both sides. -/
def onChildren (c : Call (σ × τ) α) : Call (Join σ τ) α :=
  Call.zoom (fun j => (j.left, j.right))
    (fun children j => { j with left := children.1, right := children.2 }) c

/-- Reserves a block of the full buffer. -/
def makeBlock (rowBytes : Nat) (tag : String) : Call (Join σ τ) (Block Row) := do
  let j ← Call.get
  Call.inPlace Join.budget (fun budget j => { j with budget }) .ofMemory
    (Block.build j.bufferBytes rowBytes tag)

/-- A block that is refused leaves the join as it was. -/
theorem makeBlock_apply (store : PageStore) (rowBytes : Nat) (tag : String) (j : Join σ τ) :
    makeBlock rowBytes tag store j =
      match Block.make j.budget j.bufferBytes rowBytes tag with
      | .ok (block, budget) => { result := .ok block, state := { j with budget } }
      | .error e => { result := .error (.ofMemory e), state := j } := by
  simp only [makeBlock, bind, Call.bind, Call.get, Call.inPlace, Block.outcome_build]
  cases (Block.make j.budget j.bufferBytes rowBytes tag : Except MemoryError (Block Row × Budget)) <;>
    rfl

/-- Gives a block back. -/
def releaseBlock (block : Block Row) (j : Join σ τ) : Join σ τ :=
  { j with budget := block.release j.budget }

variable [Cursor σ] [Cursor τ] [Sorting]

/-- The join by blocks. The blocks are reserved first, the left one before the right one, and given
back in any case. -/
def computeByBlocks : Call (Join σ τ) (List Row) := do
  let j ← Call.get
  let left ← makeBlock (Cursor.schema j.left).byteSize "join_left_block"
  Call.ensuring (releaseBlock left) do
    let right ← makeBlock (Cursor.schema j.right).byteSize "join_right_block"
    Call.ensuring (releaseBlock right) do
      let (rows, stats) ← onChildren (blockNestedLoop j.predicate j.schema left right)
      Call.modify fun j => { j with stats := some stats }
      return rows

/-- The rows, found by the strategy of the join; both sides must be open. -/
def compute : Call (Join σ τ) (List Row) := do
  let j ← Call.get
  match j.strategy with
  | .nestedLoop => onChildren (nestedLoop j.predicate j.schema)
  | .blockNestedLoop => computeByBlocks
  | .sortMerge => onChildren (sortMerge j.predicate j.schema)
  | .hash => onChildren (hash j.predicate j.schema)

/-- Closes the join and both sides. -/
def close (j : Join σ τ) : Join σ τ :=
  { j with pending := none, left := Cursor.close j.left, right := Cursor.close j.right }

/-- Finds the rows and keeps them to be handed out. -/
def materialize : Call (Join σ τ) Unit := do
  let rows ← Call.onError close compute
  Call.modify fun j => { j with pending := some rows }

/-! ## The calls -/

/-- Opens both sides, the left one first, and finds the rows. -/
def start : Call (Join σ τ) Unit := do
  let j ← Call.get
  if j.pending.isSome then Call.fail (.usage (.alreadyOpen .join))
  else
    onLeft Cursor.start
    Call.onError (fun j => { j with left := Cursor.close j.left }) (onRight Cursor.start)
    materialize

/-- Whether a row is left. -/
def hasNext : Call (Join σ τ) Bool := do
  let j ← Call.get
  Call.ofExcept (j.pending.hasNext .join)

/-- Takes the next row. -/
def next : Call (Join σ τ) Row := do
  let j ← Call.get
  let (row, pending) ← Call.ofExcept (j.pending.next .join)
  Call.modify fun j => { j with pending }
  return row

/-- Rewinds both sides, the left one first, and finds the rows again. -/
def rewind : Call (Join σ τ) Unit := do
  let j ← Call.get
  if j.pending.isNone then Call.fail (.usage (.notOpen .join))
  else
    Call.onError close do
      onLeft Cursor.rewind
      onRight Cursor.rewind
    Call.modify fun j => { j with pending := none }
    materialize

omit [Cursor σ] [Cursor τ] [Sorting] in
theorem state_hasNext (store : PageStore) (j : Join σ τ) : (hasNext store j).state = j := by
  simp only [hasNext, bind, Call.bind, Call.get, Call.ofExcept]

omit [Cursor σ] [Cursor τ] [Sorting] in
theorem remaining_next {store : PageStore} {j : Join σ τ} {row : Row}
    (h : (next store j).result = .ok row) :
    (next store j).state.pending.remaining < j.pending.remaining := by
  simp only [next, bind, Call.bind, Call.get, Call.ofExcept, Call.modify, pure, Call.pure] at h ⊢
  cases hn : j.pending.next .join with
  | error e => simp [hn] at h
  | ok taken => simpa [hn] using Replay.remaining_next hn

instance : Cursor (Join σ τ) where
  schema := schema
  start := start
  hasNext := hasNext
  next := next
  rewind := rewind
  close := close
  remaining _ j := j.pending.remaining
  remaining_hasNext store j :=
    Nat.le_of_eq (congrArg (·.pending.remaining) (state_hasNext store j))
  remaining_next _ _ _ h := remaining_next h

end Join

end RowStream
