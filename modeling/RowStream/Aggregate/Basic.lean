import RowStream.Aggregate.Grouping
import RowStream.Stream.Cursor
import RowStream.Stream.Replay

/-!
# `RowStream.Aggregate.Basic` — the groups of a stream as a stream

An aggregate reads its child to the end when it is opened and folds it into groups. Then it hands
out one row for each group; to be rewound it needs the groups only, not the child. If anything fails
on the way, the aggregate and its child are closed.

## Contents
- `Aggregate`, `Aggregate.Run` — the state, and what an open aggregate knows.
- `Aggregate.make`, `Aggregate.setChild` — aggregating a stream, and another one instead.
- `Aggregate.readChild`, `Aggregate.replay` — folding the child, and handing out the groups.
- Its calls as a `Cursor`.
-/

namespace RowStream

/-- What an open aggregate knows. -/
structure Aggregate.Run where
  /-- The child, folded into groups. -/
  groups : Grouping
  /-- The rows that are still to come. -/
  pending : List Row
  deriving DecidableEq, Repr

/-- The groups of a stream `σ`. -/
structure Aggregate (σ : Type) where
  /-- The stream that is folded into groups. -/
  child : σ
  /-- The index of the aggregated column. -/
  field : Nat
  /-- The index of the group column, if there is one. -/
  groupField : Option Nat
  /-- The function. -/
  fn : AggregateFn
  /-- The columns of the answer. -/
  schema : Schema
  /-- The grouping with which reading the child begins. -/
  blank : Grouping
  /-- What is known while the aggregate is open. -/
  run : Option Aggregate.Run := none

namespace Aggregate

variable {σ σ' α : Type}

/-- The column at an index of the child, and its type. -/
def column (child : Schema) (index : Nat) : Except StreamError Field :=
  match child.fields[index]? with
  | some f => .ok f
  | none => .error (.data (.schema (.noFieldAt index)))

/-- The grouping for the columns of a child, and the columns of the answer: the group column, if
there is one, and an integer under the name of the aggregated column. -/
def plan (child : Schema) (field : Nat) (groupField : Option Nat) (fn : AggregateFn) :
    Except StreamError (Grouping × Schema) := do
  let input ← column child field
  let group ← groupField.mapM (column child)
  let blank ← Grouping.make input.type groupField (group.map (·.type)) field fn
  return (blank, ⟨group.toList ++ [{ input with type := .int }]⟩)

section Building

variable [Cursor σ] [Cursor σ']

/-- The closed aggregate of a stream. -/
def make (child : σ) (field : Nat) (groupField : Option Nat) (fn : AggregateFn) :
    Except StreamError (Aggregate σ) := do
  let (blank, schema) ← plan (Cursor.schema child) field groupField fn
  return { child, field, groupField, fn, schema, blank }

/-- Refuses to replace the child of an open aggregate. -/
def checkClosed (a : Aggregate σ) : Except StreamError Unit :=
  if a.run.isSome then .error (.usage .rebindOpenAggregate) else .ok ()

/-- The aggregate of another stream, with everything else as it is. -/
def setChild (a : Aggregate σ) (child : σ') : Except StreamError (Aggregate σ') := do
  a.checkClosed
  let (blank, schema) ← plan (Cursor.schema child) a.field a.groupField a.fn
  return { a with child, schema, blank }

/-! ## What an aggregate tells of itself -/

/-- The name of the aggregated column, as the child calls it. -/
def fieldName (a : Aggregate σ) : Option String := (Cursor.schema a.child).nameAt? a.field

/-- The name of the group column, as the child calls it. -/
def groupFieldName (a : Aggregate σ) : Option String :=
  a.groupField.bind (Cursor.schema a.child).nameAt?

end Building

/-! ## Finding the groups -/

variable [Cursor σ] [Grouping.Listing]

/-- A call on the child. -/
def onChild (c : Call σ α) : Call (Aggregate σ) α :=
  Call.zoom Aggregate.child (fun child a => { a with child }) c

/-- Closes the aggregate and its child. -/
def close (a : Aggregate σ) : Aggregate σ := { a with run := none, child := Cursor.close a.child }

/-- Folds the child, which must be open, into groups. -/
def readChild : Call (Aggregate σ) Grouping := do
  let a ← Call.get
  onChild (Cursor.fold Grouping.merge a.blank)

/-- Hands out the groups from the first one on. -/
def replay (groups : Grouping) : Call (Aggregate σ) Unit := do
  let a ← Call.get
  let pending ← Call.ofExcept (groups.rows a.schema)
  Call.modify fun a => { a with run := some { groups, pending } }

/-- The rows that are still to come. -/
def pending (a : Aggregate σ) : Replay := a.run.map (·.pending)

/-! ## The calls -/

/-- Opens the child, reads it to its end and hands out the groups. -/
def start : Call (Aggregate σ) Unit := do
  let a ← Call.get
  if a.run.isSome then Call.fail (.usage (.alreadyOpen .aggregate))
  else
    onChild Cursor.start
    Call.onError close do
      replay (← readChild)

/-- Whether a row is left. -/
def hasNext : Call (Aggregate σ) Bool := do
  let a ← Call.get
  Call.ofExcept (a.pending.hasNext .aggregate)

/-- Takes the next row. -/
def next : Call (Aggregate σ) Row := do
  let a ← Call.get
  match a.run with
  | none => Call.fail (.usage (.notOpen .aggregate))
  | some ⟨_, []⟩ => Call.fail .exhausted
  | some ⟨groups, row :: pending⟩ =>
    Call.modify fun a => { a with run := some ⟨groups, pending⟩ }
    return row

/-- Hands out the groups again; the child is not read. -/
def rewind : Call (Aggregate σ) Unit := do
  let a ← Call.get
  match a.run with
  | none => Call.fail (.usage (.notOpen .aggregate))
  | some run => replay run.groups

omit [Cursor σ] [Grouping.Listing] in
theorem state_hasNext (store : PageStore) (a : Aggregate σ) : (hasNext store a).state = a := by
  simp only [hasNext, bind, Call.bind, Call.get, Call.ofExcept]

omit [Cursor σ] [Grouping.Listing] in
theorem remaining_next {store : PageStore} {a : Aggregate σ} {row : Row}
    (h : (next store a).result = .ok row) :
    (next store a).state.pending.remaining < a.pending.remaining := by
  simp only [next, bind, Call.bind, Call.get] at h ⊢
  cases hr : a.run with
  | none => simp [hr, Call.fail, Call.ofExcept] at h
  | some run =>
    obtain ⟨groups, rows⟩ := run
    cases rows with
    | nil => simp [hr, Call.fail, Call.ofExcept] at h
    | cons row rows =>
      simp [Call.bind, Call.modify, pure, Call.pure, pending, hr, Replay.remaining]

instance : Cursor (Aggregate σ) where
  schema := schema
  start := start
  hasNext := hasNext
  next := next
  rewind := rewind
  close := close
  remaining _ a := a.pending.remaining
  remaining_hasNext store a :=
    Nat.le_of_eq (congrArg (·.pending.remaining) (state_hasNext store a))
  remaining_next _ _ _ h := remaining_next h

end Aggregate

end RowStream
