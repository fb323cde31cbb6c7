import RowStream.Aggregate.Basic
import RowStream.Join.Basic
import RowStream.Stream.Materialized
import RowStream.Stream.Scan
import RowStream.Stream.Sealed

/-!
# `RowStream.Tree.Basic` — streams built from streams

Rows at hand and scans are the leaves of a tree; joins, aggregates and covers are its inner nodes.
The shape of a tree says which node stands where, and the node of a shape is a stream.

## Contents
- `Shape`, `Node` — the shapes, and the streams of each.
- `Node.release` — giving a reservation back to the join it was taken from, wherever that stands.
- `Stream` — a stream of some shape.
- `Stream.run` — a call on a stream and a store.
- `Stream.join`, `Stream.aggregate`, `Stream.cover` and others — building streams.
- `Stream.setStrategy`, `Stream.reserve?` — what can be done to a join at the root of a tree.
- `Stream.replaceChildren`, `Stream.setChildren` — other children for a join or an aggregate, in place and
  as what comes of it.
- `replaceChildren_pair`, `replaceChildren_single`, `replaceChildren_run` — what becomes of the stream, and
  that children that are refused change nothing.
-/

namespace RowStream

variable [Join.Sorting] [Grouping.Listing]

/-- The shapes of trees. -/
inductive Shape where
  /-- Rows at hand. -/
  | materialized
  /-- The rows of a stored table. -/
  | scan
  /-- A tree of which only the calls are seen. -/
  | sealed (inner : Shape)
  /-- The join of two trees. -/
  | join (left right : Shape)
  /-- The groups of a tree. -/
  | aggregate (child : Shape)
  deriving DecidableEq, Repr

/-- The trees of a shape. -/
def Node : Shape → Type
  | .materialized => Materialized
  | .scan => Scan
  | .sealed inner => Sealed (Node inner)
  | .join left right => Join (Node left) (Node right)
  | .aggregate child => Aggregate (Node child)

namespace Node

/-- Trees of every shape are streams. -/
instance cursor : (shape : Shape) → Cursor (Node shape)
  | .materialized => inferInstanceAs (Cursor Materialized)
  | .scan => inferInstanceAs (Cursor Scan)
  | .sealed inner =>
    have := cursor inner
    inferInstanceAs (Cursor (Sealed (Node inner)))
  | .join left right =>
    have := cursor left
    have := cursor right
    inferInstanceAs (Cursor (Join (Node left) (Node right)))
  | .aggregate child =>
    have := cursor child
    inferInstanceAs (Cursor (Aggregate (Node child)))

/-- Gives a reservation back to the join of the tree from which it was taken, if there is one. -/
def release (r : Reservation) : {shape : Shape} → Node shape → Node shape
  | .materialized, s => s
  | .scan, s => s
  | .sealed _, s => Sealed.mk (release r s.inner)
  | .join left right, j =>
    { (j : Join (Node left) (Node right)) with
      budget := j.budget.release r
      left := release r j.left
      right := release r j.right }
  | .aggregate child, a =>
    { (a : Aggregate (Node child)) with child := release r a.child }

end Node

/-- A stream of some shape. -/
structure Stream where
  /-- The shape. -/
  shape : Shape
  /-- The tree. -/
  node : Node shape

namespace Stream

/-- The columns of the rows. -/
def schema (s : Stream) : Schema := Cursor.schema s.node

/-- Closes the stream. -/
def close (s : Stream) : Stream := { s with node := Cursor.close s.node }

/-- Performs a call on a stream. The store counts the pages that it hands out. -/
def run {α : Type} (c : {σ : Type} → [Cursor σ] → Call σ α) (store : PageStore) (s : Stream) :
    Except StreamError α × Stream × PageStore :=
  let o := c store s.node
  (o.result, { s with node := o.state }, store.countReads o.reads)

/-- Gives a reservation back to the join of the tree from which it was taken, if there is one. -/
def release (r : Reservation) (s : Stream) : Stream := { s with node := Node.release r s.node }

/-! ## Building streams -/

/-- Rows at hand. -/
def ofMaterialized (s : Materialized) : Stream := ⟨.materialized, s⟩

/-- The rows of a stored table. -/
def ofScan (s : Scan) : Stream := ⟨.scan, s⟩

/-- The stream of which only the calls are seen. -/
def cover (s : Stream) : Stream := ⟨.sealed s.shape, Sealed.mk s.node⟩

/-- The closed join of two streams. -/
def join (config : Config) (account : Nat) (p : Predicate) (left right : Stream) :
    Except StreamError Stream := do
  return ⟨.join left.shape right.shape, ← Join.make config account p left.node right.node⟩

/-- The closed aggregate of a stream. -/
def aggregate (child : Stream) (field : Nat) (groupField : Option Nat) (fn : AggregateFn) :
    Except StreamError Stream := do
  return ⟨.aggregate child.shape, ← Aggregate.make child.node field groupField fn⟩

/-! ## Changing the outermost node -/

/-- Gives a join another way to find its rows; any other stream is left alone. -/
def setStrategy (strategy : Strategy) : Stream → Stream
  | ⟨.join l r, j⟩ => ⟨.join l r, Join.setStrategy j strategy⟩
  | s => s

/-- Takes bytes from the budget of a join; no other stream has one. -/
def reserve? (bytes : Nat) (tag : String) :
    Stream → Option (Except MemoryError (Reservation × Stream))
  | ⟨.join l r, j⟩ => some do
    let (reservation, j) ← Join.reserve j bytes tag
    return (reservation, ⟨.join l r, j⟩)
  | _ => none

/-! ## Other children -/

/-- Writes the columns of a join. -/
def putSchema (schema : Schema) : Stream → Stream
  | ⟨.join l r, j⟩ => ⟨.join l r, { (j : Join (Node l) (Node r)) with schema }⟩
  | s => s

/-- Writes the left side of a join. -/
def putLeft (left : Stream) : Stream → Stream
  | ⟨.join l r, j⟩ =>
    ⟨.join left.shape r, { (j : Join (Node l) (Node r)) with left := left.node }⟩
  | s => s

/-- Writes the right side of a join. -/
def putRight (right : Stream) : Stream → Stream
  | ⟨.join l r, j⟩ =>
    ⟨.join l right.shape, { (j : Join (Node l) (Node r)) with right := right.node }⟩
  | s => s

/-- Writes what an aggregate derives from the columns of its child. -/
def putPlan (blank : Grouping) (schema : Schema) : Stream → Stream
  | ⟨.aggregate c, a⟩ => ⟨.aggregate c, { (a : Aggregate (Node c)) with blank, schema }⟩
  | s => s

/-- Writes the child of an aggregate. -/
def putChild (child : Stream) : Stream → Stream
  | ⟨.aggregate c, a⟩ =>
    ⟨.aggregate child.shape, { (a : Aggregate (Node c)) with child := child.node }⟩
  | s => s

/-- Replaces the children of the join or the aggregate that is at hand, which must be closed and be given
as many as it has. A stream without children of its own is left alone. -/
def replaceChildren (children : List Stream) : InPlace StreamError Stream Unit := do
  match ← get with
  | ⟨.join _ _, j⟩ =>
    InPlace.check (Join.checkClosed j)
    match children with
    | [left, right] =>
      InPlace.check (Join.checkFields j.predicate left.schema right.schema)
      modify (putSchema (left.schema.append right.schema))
      modify (putLeft left)
      modify (putRight right)
    | _ => throw (.usage (.joinChildren children.length))
  | ⟨.aggregate _, a⟩ =>
    InPlace.check (Aggregate.checkClosed a)
    match children with
    | [child] =>
      let (blank, schema) ← InPlace.check (Aggregate.plan child.schema a.field a.groupField a.fn)
      modify (putPlan blank schema)
      modify (putChild child)
    | _ => throw (.usage (.aggregateChildren children.length))
  | _ => return ()

/-- The stream with other children, if it takes them. -/
def setChildren (s : Stream) (children : List Stream) : Except StreamError Stream :=
  match (replaceChildren children).run s with
  | .ok _ s => .ok s
  | .error e _ => .error e

/-! ## What becomes of a stream that gets other children -/

variable {l r c : Shape} {children : List Stream}

/-- Whether a join is closed is looked at before the children are. -/
theorem replaceChildren_of_open_join {j : Join (Node l) (Node r)} {e : StreamError}
    (h : Join.checkClosed j = .error e) (children : List Stream) :
    (replaceChildren children).run ⟨.join l r, j⟩ = .error e ⟨.join l r, j⟩ := by
  simp only [replaceChildren, EStateM.run_bind, EStateM.run_get, InPlace.run_check, h]

/-- A join that takes two children gets them and their columns, and otherwise stays as it was. -/
theorem replaceChildren_pair (j : Join (Node l) (Node r)) (left right : Stream) :
    (replaceChildren [left, right]).run ⟨.join l r, j⟩ =
      match Join.setChildren j left.node right.node with
      | .ok j' => .ok () ⟨.join left.shape right.shape, j'⟩
      | .error e => .error e ⟨.join l r, j⟩ := by
  simp only [replaceChildren, EStateM.run_bind, EStateM.run_get, InPlace.run_check, schema]
  simp only [Join.setChildren, bind, Except.bind]
  cases Join.checkClosed j with
  | error e => rfl
  | ok u => cases Join.checkFields j.predicate (Cursor.schema left.node) (Cursor.schema right.node) <;> rfl

/-- More or fewer children are refused once the join is known to be closed. -/
theorem replaceChildren_of_not_pair (j : Join (Node l) (Node r)) (h : children.length ≠ 2) :
    (replaceChildren children).run ⟨.join l r, j⟩ =
      match Join.checkClosed j with
      | .ok _ => .error (.usage (.joinChildren children.length)) ⟨.join l r, j⟩
      | .error e => .error e ⟨.join l r, j⟩ := by
  simp only [replaceChildren, EStateM.run_bind, EStateM.run_get, InPlace.run_check]
  cases Join.checkClosed j with
  | error e => rfl
  | ok u =>
    match children, h with
    | [], _ | [_], _ | _ :: _ :: _ :: _, _ => rfl

/-- Whether an aggregate is closed is looked at before the children are. -/
theorem replaceChildren_of_open_aggregate {a : Aggregate (Node c)} {e : StreamError}
    (h : Aggregate.checkClosed a = .error e) (children : List Stream) :
    (replaceChildren children).run ⟨.aggregate c, a⟩ = .error e ⟨.aggregate c, a⟩ := by
  simp only [replaceChildren, EStateM.run_bind, EStateM.run_get, InPlace.run_check, h]

/-- An aggregate that takes a child gets it and what it derives from its columns, and otherwise stays as it
was. -/
theorem replaceChildren_single (a : Aggregate (Node c)) (child : Stream) :
    (replaceChildren [child]).run ⟨.aggregate c, a⟩ =
      match Aggregate.setChild a child.node with
      | .ok a' => .ok () ⟨.aggregate child.shape, a'⟩
      | .error e => .error e ⟨.aggregate c, a⟩ := by
  simp only [replaceChildren, EStateM.run_bind, EStateM.run_get, InPlace.run_check, schema]
  simp only [Aggregate.setChild, bind, Except.bind]
  cases Aggregate.checkClosed a with
  | error e => rfl
  | ok u => cases Aggregate.plan (Cursor.schema child.node) a.field a.groupField a.fn <;> rfl

/-- More or fewer children are refused once the aggregate is known to be closed. -/
theorem replaceChildren_of_not_single (a : Aggregate (Node c)) (h : children.length ≠ 1) :
    (replaceChildren children).run ⟨.aggregate c, a⟩ =
      match Aggregate.checkClosed a with
      | .ok _ => .error (.usage (.aggregateChildren children.length)) ⟨.aggregate c, a⟩
      | .error e => .error e ⟨.aggregate c, a⟩ := by
  simp only [replaceChildren, EStateM.run_bind, EStateM.run_get, InPlace.run_check]
  cases Aggregate.checkClosed a with
  | error e => rfl
  | ok u =>
    match children, h with
    | [], _ | _ :: _ :: _, _ => rfl

/-- Children that are refused leave the stream as it was. -/
theorem replaceChildren_run (s : Stream) (children : List Stream) :
    (replaceChildren children).run s =
      match s.setChildren children with
      | .ok s' => .ok () s'
      | .error e => .error e s := by
  unfold setChildren
  obtain ⟨shape, t⟩ := s
  cases shape with
  | join l r =>
    match children with
    | [left, right] =>
      rw [replaceChildren_pair (l := l) (r := r) t left right]
      cases Join.setChildren t left.node right.node <;> rfl
    | [] | [_] | _ :: _ :: _ :: _ =>
      rw [replaceChildren_of_not_pair (l := l) (r := r) t (by simp)]
      cases Join.checkClosed t <;> rfl
  | aggregate c =>
    match children with
    | [child] =>
      rw [replaceChildren_single (c := c) t child]
      cases Aggregate.setChild t child.node <;> rfl
    | [] | _ :: _ :: _ =>
      rw [replaceChildren_of_not_single (c := c) t (by simp)]
      cases Aggregate.checkClosed t <;> rfl
  | materialized => rfl
  | scan => rfl
  | sealed inner => rfl

end Stream

end RowStream
