import RowStream.Proofs.Tree.Together

/-!
# `RowStream.Proofs.Tree.Reopen` — going back is closing and opening again

A tree of rows at hand, scans and joins keeps nothing from one opening to the next. Whatever has
become of the store and of the joins since it was opened, a rewind does to it what closing and
opening it would do, down to the pages that are read. Aggregates are different: they keep their
groups.

## Contents
- `Cursor.Reopens` — going back is closing and opening again.
- `Materialized.reopens`, `Scan.reopens`, `Sealed.reopens` — streams without others below them, and
  covers.
- `Join.rewindSides_eq`, `Join.reopens` — joins: first the two sides, then the rows.
- `Shape.AggregateFree`, `Node.reopens` — every open tree without aggregates.
-/

namespace RowStream

open Call

/-- Where all is open, going back is closing and opening again; where all is closed, closing changes
nothing. -/
structure Cursor.Reopens {σ : Type} [Cursor σ] (store : PageStore) (O C : σ → Prop) : Prop where
  /-- The same happens, and the same is left. -/
  rewind_eq : ∀ {s}, O s → Cursor.rewind store s = Cursor.start store (Cursor.close s)
  /-- There is nothing left to close. -/
  close_eq : ∀ {s}, C s → Cursor.close s = s

/-- A stream that is closed and cannot be opened again has nothing left to close. -/
theorem Cursor.Reopens.close_failed {σ : Type} [Cursor σ] {store : PageStore} {O R C : σ → Prop}
    (h : Cursor.Reopens store O C) (hwhole : Cursor.Together store R C) {s : σ} {e : StreamError}
    (he : (Cursor.start store (Cursor.close s)).result = .error e) :
    Cursor.close (Cursor.start store (Cursor.close s)).state =
      (Cursor.start store (Cursor.close s)).state := by
  apply h.close_eq
  exact (hwhole.start.of_error (hwhole.close s) he).2

namespace Call

variable {σ α β : Type} {store : PageStore}

/-- A call that looks at its state first. -/
theorem get_bind (store : PageStore) (f : σ → Call σ α) (s : σ) :
    (get >>= f) store s = f s store s := by
  rw [bind_of_ok (c := get) (a := s) rfl]
  rfl

/-- Where two calls do the same, the same calls can follow. -/
theorem bind_congr {c c' : Call σ α} {s s' : σ} (h : c store s = c' store s') (f : α → Call σ β) :
    (c >>= f) store s = (c' >>= f) store s' := by
  show Call.bind c f store s = Call.bind c' f store s'
  unfold Call.bind
  rw [h]

end Call

/-! ## Streams without others below them -/

variable (store : PageStore)

theorem Materialized.reopens : Cursor.Reopens store (fun s : Materialized => s.pending.isSome)
    (fun s => s.pending = none) where
  rewind_eq := by
    intro s hs
    obtain ⟨rows, hrows⟩ := Option.isSome_iff_exists.1 hs
    show Materialized.rewind store s = Materialized.start store s.close
    unfold Materialized.rewind Materialized.start
    rw [get_bind, get_bind, hrows]
    rfl
  close_eq := by
    intro s hs
    show { s with pending := none } = s
    rw [← hs]

theorem Scan.reopens : Cursor.Reopens store (fun s : Scan => s.position.isSome)
    (fun s => s.position = none) where
  rewind_eq := by
    intro s hs
    have hopen : ¬ s.position.isNone = true := by simpa using Option.isSome_iff_ne_none.1 hs
    show Scan.rewind store s = Scan.start store s.close
    unfold Scan.rewind
    rw [get_bind, if_neg hopen, bind_of_ok (c := Call.modify close) (a := ()) rfl]
    rfl
  close_eq := by
    intro s hs
    show { s with position := none } = s
    rw [← hs]

/-- A cover goes back as what it covers does. -/
theorem Sealed.reopens {σ : Type} [Cursor σ] {store : PageStore} {O C : σ → Prop}
    (h : Cursor.Reopens store O C) :
    Cursor.Reopens store (fun s : Sealed σ => O s.inner) (fun s => C s.inner) where
  rewind_eq := by
    intro s hs
    show onInner Cursor.rewind store s = onInner Cursor.start store ⟨Cursor.close s.inner⟩
    unfold onInner Call.zoom
    rw [h.rewind_eq hs]
  close_eq := by
    intro s hs
    show Sealed.mk (Cursor.close s.inner) = s
    rw [h.close_eq hs]

/-! ## Joins -/

namespace Join

variable {σ τ : Type} [Cursor σ] [Cursor τ] {store : PageStore} {O R C : σ → Prop}
  {O' R' C' : τ → Prop}

/-- Opens both sides, the left one first; if the right one does not open, the left one is closed. -/
def startSides : Call (Join σ τ) Unit := do
  onLeft Cursor.start
  Call.onError (fun j => { j with left := Cursor.close j.left }) (onRight Cursor.start)

/-- Goes back on both sides, the left one first, and forgets the rows; if one side fails, both are
closed. -/
def rewindSides : Call (Join σ τ) Unit := do
  Call.onError close do
    onLeft Cursor.rewind
    onRight Cursor.rewind
  Call.modify fun j => { j with pending := none }

/-- A closed join opens both sides and finds the rows. -/
theorem start_eq [Sorting] {j : Join σ τ} (hj : j.pending = none) :
    start store j = (startSides >>= fun _ => materialize) store j := by
  have hclosed : ¬ j.pending.isSome = true := by simp [hj]
  unfold start startSides
  rw [get_bind, if_neg hclosed, bind_assoc]

/-- An open join goes back on both sides and finds the rows. -/
theorem rewind_eq [Sorting] {j : Join σ τ} (hj : j.pending.isSome) :
    rewind store j = (rewindSides >>= fun _ => materialize) store j := by
  have hopen : ¬ j.pending.isNone = true := by simpa using Option.isSome_iff_ne_none.1 hj
  unfold rewind rewindSides
  rw [get_bind, if_neg hopen, bind_assoc]

/-- On both sides, going back is closing and opening again, whichever of them fails. -/
theorem rewindSides_eq (hl : Cursor.Reopens store O C) (hr : Cursor.Reopens store O' C')
    (hwhole : Cursor.Together store R C) (hwhole' : Cursor.Together store R' C') {j : Join σ τ}
    (ho : O j.left) (ho' : O' j.right) : rewindSides store j = startSides store (close j) := by
  unfold rewindSides startSides close
  simp only [Bind.bind, Call.bind, onLeft, onRight, Call.zoom, Call.onError, Call.modify,
    hl.rewind_eq ho]
  cases hleft : (Cursor.start store (Cursor.close j.left)).result with
  | error e =>
    -- the right side is closed, too
    simp [hl.close_failed hwhole hleft]
  | ok u =>
    simp only [hr.rewind_eq ho']
    cases hright : (Cursor.start store (Cursor.close j.right)).result with
    | error e =>
      -- the left side is closed again
      simp [hr.close_failed hwhole' hright]
    | ok u => simp

/-- An open join goes back as its sides do. -/
theorem reopens [Sorting] (hl : Cursor.Reopens store O C) (hr : Cursor.Reopens store O' C')
    (hwhole : Cursor.Together store R C) (hwhole' : Cursor.Together store R' C') :
    Cursor.Reopens store (fun j : Join σ τ => j.pending.isSome ∧ O j.left ∧ O' j.right)
      (Shut C C') where
  rewind_eq := by
    rintro j ⟨hj, ho, ho'⟩
    have hsides := rewindSides_eq hl hr hwhole hwhole' ho ho'
    show rewind store j = start store (close j)
    rw [rewind_eq hj, start_eq (j := close j) rfl]
    exact bind_congr hsides fun _ => materialize
  close_eq := by
    rintro j ⟨hj, hc, hc'⟩
    show { j with pending := none, left := Cursor.close j.left, right := Cursor.close j.right } = j
    rw [hl.close_eq hc, hr.close_eq hc', ← hj]

end Join

/-! ## Trees without aggregates -/

/-- No node is an aggregate. -/
def Shape.AggregateFree : Shape → Prop
  | .materialized => True
  | .scan => True
  | .sealed inner => inner.AggregateFree
  | .join left right => left.AggregateFree ∧ right.AggregateFree
  | .aggregate _ => False

namespace Node

/-- For every open tree without aggregates, going back is closing and opening again. -/
theorem reopens [Join.Sorting] [Grouping.Listing] {shape : Shape} (h : shape.AggregateFree) :
    Cursor.Reopens store (AllOpen : Node shape → Prop) AllClosed := by
  induction shape with
  | materialized => exact Materialized.reopens store
  | scan => exact Scan.reopens store
  | sealed inner ih => exact Sealed.reopens (ih h)
  | join left right ihl ihr =>
    obtain ⟨hl, hr⟩ := h
    exact Join.reopens (ihl hl) (ihr hr) (together store left) (together store right)
  | aggregate child => exact h.elim

end Node

end RowStream
