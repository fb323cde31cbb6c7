import RowStream.Proofs.Stream.Keeps
import RowStream.Stream.Materialized
import RowStream.Stream.Scan
import RowStream.Stream.Sealed

/-!
# `RowStream.Proofs.Stream.Together` — streams that open and close as a whole

A stream may have other streams below it. It opens and closes as a whole if, whatever becomes of the
store, a start that finds all of them closed leaves all of them open or, if it fails, all of them
closed; and if an open stream cannot be sent back, all of them are closed, too.

## Contents
- `Cursor.Together` — the contract of such a stream.
- `Together.keeps` — what reading it keeps.
- `Materialized.together`, `Scan.together`, `Sealed.together` — streams without others below them,
  and covers.
-/

namespace RowStream

open Call

/-- The stream opens and closes as a whole: `O` is all open, and `C` is all closed. None of
its failures then is that of a call in the wrong state. -/
structure Cursor.Together {σ : Type} [Cursor σ] (store : PageStore) (O C : σ → Prop) : Prop where
  /-- A start opens all, or all stays closed. -/
  start : Triple store C Cursor.start (fun _ => O) (fun e s => e.isUsage = false ∧ C s)
  /-- Looking for a row leaves all open. -/
  hasNext : Triple store O Cursor.hasNext (fun _ => O) (fun e s => e.isUsage = false ∧ O s)
  /-- Taking a row leaves all open. -/
  next : Triple store O Cursor.next (fun _ => O) (fun e s => e.isUsage = false ∧ O s)
  /-- Going back leaves all open, or closes all. -/
  rewind : Triple store O Cursor.rewind (fun _ => O) (fun e s => e.isUsage = false ∧ C s)
  /-- Closing closes all, whatever was open. -/
  close : ∀ s : σ, C (Cursor.close s)

namespace Cursor.Together

variable {σ : Type} [Cursor σ] {store : PageStore} {O C : σ → Prop}

/-- Reading an open stream leaves it open, unless it fails. -/
theorem keeps (h : Cursor.Together store O C) :
    Cursor.Keeps store (fun e => e.isUsage = false) O (fun _ => True) where
  weaken := fun _ => trivial
  hasNext := h.hasNext.imp (fun _ => id) (fun _ _ => id) (fun _ _ he => ⟨he.1, trivial⟩)
  next := h.next.imp (fun _ => id) (fun _ _ => id) (fun _ _ he => ⟨he.1, trivial⟩)
  rewind := h.rewind.imp (fun _ => id) (fun _ _ => id) (fun _ _ he => ⟨he.1, trivial⟩)

end Cursor.Together

/-! ## Rows at hand -/

/-- The open state of rows at hand gives a row or is exhausted. -/
theorem Replay.next_of_isSome (kind : StreamKind) {r : Replay} (h : r.isSome) :
    match r.next kind with
    | .ok (_, r') => r'.isSome
    | .error e => e.isUsage = false := by
  match r, h with
  | some [], _ => rfl
  | some (row :: rows), _ => rfl

namespace Materialized

variable (store : PageStore)

theorem together : Cursor.Together store (fun s : Materialized => s.pending.isSome)
    (fun s => s.pending = none) where
  start := by
    refine Triple.getBind fun s hs => ?_
    rw [if_neg (by simp [hs])]
    exact Triple.modify fun _ _ => rfl
  hasNext := by
    refine Triple.getBind fun s hs => Triple.ofExcept (fun _ _ ht _ => ht ▸ hs) fun t e ht he => ?_
    obtain ⟨rows, hrows⟩ := Option.isSome_iff_exists.1 hs
    rw [hrows] at he
    cases he
  next := by
    refine Triple.getBind fun s hs => ?_
    have hnext := Replay.next_of_isSome .materialized hs
    refine Triple.bind (R := fun taken _ => taken.2.isSome) (Triple.ofExcept ?_ ?_) fun taken =>
      Triple.bind (R := fun _ s => s.pending.isSome) (Triple.modify fun _ h => h) fun _ =>
        Triple.pure fun _ => id
    · intro t a ht ha
      rwa [ha] at hnext
    · rintro t e rfl he
      rw [he] at hnext
      exact ⟨hnext, hs⟩
  rewind := by
    refine Triple.getBind fun s hs => ?_
    rw [if_neg (by simpa using Option.isSome_iff_ne_none.1 hs)]
    exact Triple.modify fun _ _ => rfl
  close := fun _ => rfl

end Materialized

/-! ## Scans -/

namespace Scan

variable (store : PageStore)

/-- Loading pages leaves the scan open, wherever it stops. -/
theorem load_together (table : TableId) (unread : List Nat) :
    Triple store (fun _ => True) (load table unread) (fun _ s => s.position.isSome)
      (fun e s => e.isUsage = false ∧ s.position.isSome) := by
  induction unread with
  | nil =>
    exact Triple.bind (R := fun _ s => s.position.isSome) (Triple.modify fun _ _ => rfl) fun _ =>
      Triple.pure fun _ => id
  | cons page unread ih =>
    refine Triple.bind (R := fun _ s => s.position.isSome) (Triple.modify fun _ _ => rfl) fun _ => ?_
    refine Triple.bind (R := fun _ s => s.position.isSome) ?_ fun rows => ?_
    · intro s hs
      unfold readPage
      cases store.readPage table page with
      | ok rows => exact hs
      | error e => exact ⟨rfl, hs⟩
    · cases rows.toList with
      | nil => exact ih.imp (fun _ _ => trivial) (fun _ _ => id) (fun _ _ => id)
      | cons row loaded =>
        exact Triple.bind (R := fun _ s => s.position.isSome) (Triple.modify fun _ _ => rfl) fun _ =>
          Triple.pure fun _ => id

theorem hasNext_together : Triple store (fun s : Scan => s.position.isSome) hasNext
    (fun _ s => s.position.isSome) (fun e s => e.isUsage = false ∧ s.position.isSome) := by
  refine Triple.getBind fun s hs => ?_
  match hp : s.position with
  | none => simp [hp] at hs
  | some ⟨[], unread⟩ =>
    exact (load_together store s.table unread).imp (fun _ _ => trivial) (fun _ _ => id) (fun _ _ => id)
  | some ⟨row :: loaded, unread⟩ => exact Triple.pure fun _ ht => ht ▸ hs

theorem next_together : Triple store (fun s : Scan => s.position.isSome) next
    (fun _ s => s.position.isSome) (fun e s => e.isUsage = false ∧ s.position.isSome) := by
  refine Triple.bind (hasNext_together store) fun more => ?_
  cases more with
  | false => exact Triple.fail fun _ hs => ⟨rfl, hs⟩
  | true =>
    refine Triple.getBind fun s hs => ?_
    match s.position with
    | none => exact Triple.fail fun _ ht => ⟨rfl, ht ▸ hs⟩
    | some ⟨[], unread⟩ => exact Triple.fail fun _ ht => ⟨rfl, ht ▸ hs⟩
    | some ⟨row :: loaded, unread⟩ =>
      refine Triple.bind (R := fun _ s => s.position.isSome) (Triple.modify fun _ _ => rfl) fun _ => ?_
      refine Triple.ofExcept (fun _ _ ht _ => ht) fun t e ht he => ⟨?_, ht⟩
      -- a stored row that does not fit the columns
      cases hrow : row.rebind s.schema with
      | ok r =>
        rw [hrow] at he
        cases he
      | error cause =>
        rw [hrow] at he
        cases he
        rfl

theorem start_together : Triple store (fun s : Scan => s.position = none) start
    (fun _ s => s.position.isSome) (fun e s => e.isUsage = false ∧ s.position = none) := by
  refine Triple.getBind fun s hs => ?_
  rw [if_neg (by simp [hs])]
  refine Triple.bind (R := fun _ _ => True) (Triple.intro (fun _ _ _ _ => trivial) ?_) fun _ =>
    Triple.modify fun _ _ => rfl
  rintro t e rfl he
  refine ⟨?_, hs⟩
  unfold numPages at he
  cases hn : store.numPages t.table with
  | ok pages =>
    simp only [hn] at he
    cases he
  | error cause =>
    simp only [hn] at he
    cases he
    rfl

theorem together : Cursor.Together store (fun s : Scan => s.position.isSome)
    (fun s => s.position = none) where
  start := start_together store
  hasNext := hasNext_together store
  next := next_together store
  rewind := by
    refine Triple.getBind fun s hs => ?_
    rw [if_neg (by simpa using Option.isSome_iff_ne_none.1 hs)]
    exact Triple.bind (R := fun _ s => s.position = none) (Triple.modify fun _ _ => rfl) fun _ =>
      start_together store
  close := fun _ => rfl

end Scan

/-! ## Covers -/

/-- A cover opens and closes with what it covers. -/
theorem Sealed.together {σ : Type} [Cursor σ] {store : PageStore} {O C : σ → Prop}
    (h : Cursor.Together store O C) :
    Cursor.Together store (fun s : Sealed σ => O s.inner) (fun s => C s.inner) where
  start := fun s hs => h.start s.inner hs
  hasNext := fun s hs => h.hasNext s.inner hs
  next := fun s hs => h.next s.inner hs
  rewind := fun s hs => h.rewind s.inner hs
  close := fun s => h.close s.inner

end RowStream
