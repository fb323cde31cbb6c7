import RowStream.Proofs.Stream.Triple
import RowStream.Tree.Basic

/-!
# `RowStream.Proofs.Tree.Request` — what can be asked of a tree, and what can be seen of it

## Contents
- `Request`, `Answer`, `Stream.perform` — the five calls on a stream as data, and performing one.
- `Request.perform_leads` — what holds after a call, from what each kind of call does.
- `Node.isOpen`, `Node.AllOpen`, `Node.AllClosed` — which nodes of a tree are open.
- `Node.mapBudgets` — something that is done to the accounts of the joins of a tree.
-/

namespace RowStream

/-- A call on a stream. -/
inductive Request where
  /-- Open the stream. -/
  | start
  /-- Look for a row. -/
  | hasNext
  /-- Take a row. -/
  | next
  /-- Go back to the first row. -/
  | rewind
  /-- Close the stream. -/
  | close
  deriving DecidableEq, Repr

/-- What a call answers, unless it fails. -/
inductive Answer where
  /-- It is done. -/
  | done
  /-- Whether there is a row. -/
  | more (more : Bool)
  /-- The row. -/
  | row (row : Row)
  deriving DecidableEq, Repr

namespace Request

variable {σ : Type} [Cursor σ]

/-- Performs a call. -/
def perform : Request → Call σ Answer
  | start => do Cursor.start; return .done
  | hasNext => do return .more (← Cursor.hasNext)
  | next => do return .row (← Cursor.next)
  | rewind => do Cursor.rewind; return .done
  | close => do Call.modify Cursor.close; return .done

section

variable (store : PageStore) (s : σ)

theorem perform_start : (start.perform store s).result =
      (Cursor.start store s).result.map (fun _ => Answer.done) ∧
    (start.perform store s).state = (Cursor.start store s).state :=
  Call.bind_return store Cursor.start (fun _ => Answer.done) s

theorem perform_hasNext : (hasNext.perform store s).result =
      (Cursor.hasNext store s).result.map Answer.more ∧
    (hasNext.perform store s).state = (Cursor.hasNext store s).state :=
  Call.bind_return store Cursor.hasNext Answer.more s

theorem perform_next : (next.perform store s).result = (Cursor.next store s).result.map Answer.row ∧
    (next.perform store s).state = (Cursor.next store s).state :=
  Call.bind_return store Cursor.next Answer.row s

theorem perform_rewind : (rewind.perform store s).result =
      (Cursor.rewind store s).result.map (fun _ => Answer.done) ∧
    (rewind.perform store s).state = (Cursor.rewind store s).state :=
  Call.bind_return store Cursor.rewind (fun _ => Answer.done) s

end

open Call in
/-- What the calls lead to, whichever of them it is that is performed. -/
theorem perform_leads {store : PageStore} {P Q : σ → Prop}
    (hstart : Triple store P Cursor.start (fun _ => Q) (fun _ => Q))
    (hhasNext : Triple store P Cursor.hasNext (fun _ => Q) (fun _ => Q))
    (hnext : Triple store P Cursor.next (fun _ => Q) (fun _ => Q))
    (hrewind : Triple store P Cursor.rewind (fun _ => Q) (fun _ => Q))
    (hclose : ∀ s, P s → Q (Cursor.close s)) (request : Request) {s : σ} (hs : P s) :
    Q (request.perform store s).state := by
  apply Triple.of_both (P := P) ?_ hs
  cases request with
  | start => exact hstart.bind fun _ => Triple.pure fun _ => id
  | hasNext => exact hhasNext.bind fun _ => Triple.pure fun _ => id
  | next => exact hnext.bind fun _ => Triple.pure fun _ => id
  | rewind => exact hrewind.bind fun _ => Triple.pure fun _ => id
  | close =>
    have hclosed : Triple store P (Call.modify Cursor.close) (fun _ => Q) (fun _ => Q) :=
      Triple.modify hclose
    exact hclosed.bind fun _ => Triple.pure fun _ => id

end Request

namespace Stream

/-- What a stream answers to a call, and the stream afterwards. -/
def perform [Join.Sorting] [Grouping.Listing] (store : PageStore) (request : Request) (s : Stream) :
    Except StreamError Answer × Stream :=
  let o := request.perform store s.node
  (o.result, { s with node := o.state })

end Stream

namespace Node

/-! ## Open and closed nodes -/

/-- Whether the outermost node is open. -/
def isOpen : {shape : Shape} → Node shape → Bool
  | .materialized, s => Option.isSome (Materialized.pending s)
  | .scan, s => Option.isSome (Scan.position s)
  | .sealed _, s => isOpen (Sealed.inner s)
  | .join _ _, j => Option.isSome (Join.pending j)
  | .aggregate _, a => Option.isSome (Aggregate.run a)

/-- Every node is open. -/
def AllOpen : {shape : Shape} → Node shape → Prop
  | .materialized, s => Option.isSome (Materialized.pending s)
  | .scan, s => Option.isSome (Scan.position s)
  | .sealed _, s => AllOpen (Sealed.inner s)
  | .join _ _, j => Option.isSome (Join.pending j) ∧ AllOpen (Join.left j) ∧ AllOpen (Join.right j)
  | .aggregate _, a => Option.isSome (Aggregate.run a) ∧ AllOpen (Aggregate.child a)

/-- Every node is closed. -/
def AllClosed : {shape : Shape} → Node shape → Prop
  | .materialized, s => Materialized.pending s = none
  | .scan, s => Scan.position s = none
  | .sealed _, s => AllClosed (Sealed.inner s)
  | .join _ _, j => Join.pending j = none ∧ AllClosed (Join.left j) ∧ AllClosed (Join.right j)
  | .aggregate _, a => Aggregate.run a = none ∧ AllClosed (Aggregate.child a)

/-- Where every node is open, the outermost one is. -/
theorem isOpen_of_allOpen {shape : Shape} {t : Node shape} (h : t.AllOpen) : t.isOpen = true := by
  induction shape with
  | materialized => exact h
  | scan => exact h
  | sealed inner ih => exact ih h
  | join left right => exact h.1
  | aggregate child => exact h.1

/-- Where every node is closed, the outermost one is. -/
theorem not_isOpen_of_allClosed {shape : Shape} {t : Node shape} (h : t.AllClosed) :
    t.isOpen = false := by
  induction shape with
  | materialized => exact congrArg Option.isSome h
  | scan => exact congrArg Option.isSome h
  | sealed inner ih => exact ih h
  | join left right => exact congrArg Option.isSome h.1
  | aggregate child => exact congrArg Option.isSome h.1

/-! ## Accounts -/

/-- Does something to the account of every join. -/
def mapBudgets (f : Budget → Budget) : {shape : Shape} → Node shape → Node shape
  | .materialized, s => s
  | .scan, s => s
  | .sealed _, s => Sealed.mk (mapBudgets f s.inner)
  | .join left right, j =>
    { (j : Join (Node left) (Node right)) with
      budget := f j.budget
      left := mapBudgets f j.left
      right := mapBudgets f j.right }
  | .aggregate child, a =>
    { (a : Aggregate (Node child)) with child := mapBudgets f a.child }

/-- Giving a reservation back is doing so to the account of every join; only one has its number. -/
theorem release_eq_mapBudgets (r : Reservation) :
    {shape : Shape} → (t : Node shape) → release r t = mapBudgets (·.release r) t
  | .materialized, _ => rfl
  | .scan, _ => rfl
  | .sealed _, s => congrArg Sealed.mk (release_eq_mapBudgets r (Sealed.inner s))
  | .join _ _, j => by
    unfold release mapBudgets
    rw [release_eq_mapBudgets r (Join.left j), release_eq_mapBudgets r (Join.right j)]
  | .aggregate _, a => by
    unfold release mapBudgets
    rw [release_eq_mapBudgets r (Aggregate.child a)]

end Node

end RowStream
