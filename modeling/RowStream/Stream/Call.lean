import RowStream.InPlace
import RowStream.Store.Basic
import RowStream.Stream.Error

/-!
# `RowStream.Stream.Call` — calls that read a store and change a stream

A call looks at a store, which it cannot change, and at the state of a stream, which it can. It
answers a value or an error, leaves a state behind in either case, and lists the pages that it was
handed, one entry for each.

## Contents
- `Outcome`, `Call` — the types.
- The monad of calls: state changes made before an error stay.
- `bind_of_ok`, `bind_of_error`, and the laws of a monad.
- `Call.zoom`, `Call.onLeft`, `Call.onRight` — a call on a part of the state.
- `Call.inPlace` — work in place on a part of the state.
- `Call.onError`, `Call.ensuring` — cleaning up after a failure, or in any case.
- `Call.readPage`, `Call.numPages` — the two things a call asks of a store.
-/

namespace RowStream

/-- What a call leaves behind. -/
structure Outcome (σ α : Type) where
  /-- The answer, or why there is none. -/
  result : Except StreamError α
  /-- The state afterwards. -/
  state : σ
  /-- For each page that was handed out, its table. -/
  reads : List TableId := []

/-- A call on a stream with state `σ` that answers an `α`. -/
def Call (σ α : Type) : Type := PageStore → σ → Outcome σ α

namespace Call

variable {σ τ α β : Type}

/-- The call that answers at once. -/
protected def pure (a : α) : Call σ α := fun _ s => { result := .ok a, state := s }

/-- One call after the other; the second is left out if the first fails. -/
protected def bind (c : Call σ α) (f : α → Call σ β) : Call σ β := fun store s =>
  let first := c store s
  match first.result with
  | .ok a =>
    let second := f a store first.state
    { second with reads := first.reads ++ second.reads }
  | .error e => { result := .error e, state := first.state, reads := first.reads }

instance : Monad (Call σ) where
  pure := Call.pure
  bind := Call.bind

/-- After an answer, the second call goes on from the state that the first one left. -/
theorem bind_of_ok {c : Call σ α} {f : α → Call σ β} {store : PageStore} {s : σ} {a : α}
    (h : (c store s).result = .ok a) :
    (c >>= f) store s =
      { f a store (c store s).state with
        reads := (c store s).reads ++ (f a store (c store s).state).reads } := by
  simp only [bind, Call.bind, h]

/-- After a failure, the second call is left out. -/
theorem bind_of_error {c : Call σ α} {f : α → Call σ β} {store : PageStore} {s : σ}
    {e : StreamError} (h : (c store s).result = .error e) :
    (c >>= f) store s =
      { result := .error e, state := (c store s).state, reads := (c store s).reads } := by
  simp only [bind, Call.bind, h]

@[simp] theorem mapError_ok {ε ε' : Type} (f : ε → ε') (a : α) :
    (Except.ok a : Except ε α).mapError f = .ok a := rfl

@[simp] theorem mapError_error {ε ε' : Type} (f : ε → ε') (e : ε) :
    (Except.error e : Except ε α).mapError f = .error (f e) := rfl

instance : LawfulMonad (Call σ) := by
  refine LawfulMonad.mk' _ ?_ ?_ ?_
  · intro α c
    funext store s
    cases h : c store s with
    | mk result state reads => cases result <;> simp [Functor.map, Call.bind, Call.pure, h]
  · intro α β a f
    funext store s
    simp [bind, Call.bind, pure, Call.pure]
  · intro α β γ c f g
    funext store s
    simp only [bind, Call.bind]
    cases h : (c store s).result with
    | error e => rfl
    | ok a => cases h' : (f a store (c store s).state).result <;> simp [h']

/-- The call that ends with the given result. -/
def ofExcept (result : Except StreamError α) : Call σ α := fun _ s => { result, state := s }

/-- The call that fails. -/
def fail (e : StreamError) : Call σ α := ofExcept (.error e)

/-- The call that answers the state. -/
def get : Call σ σ := fun _ s => { result := .ok s, state := s }

/-- The call that changes the state. -/
def modify (f : σ → σ) : Call σ Unit := fun _ s => { result := .ok (), state := f s }

/-- A call on a part of the state. -/
def zoom (part : σ → τ) (putPart : τ → σ → σ) (c : Call τ α) : Call σ α := fun store s =>
  let o := c store (part s)
  { o with state := putPart o.state s }

/-- A call on the first of two states. -/
def onLeft (c : Call σ α) : Call (σ × τ) α := zoom Prod.fst (fun l s => (l, s.2)) c

/-- A call on the second of two states. -/
def onRight (c : Call τ α) : Call (σ × τ) α := zoom Prod.snd (fun r s => (s.1, r)) c

/-- Work in place on a part of the state. What it has written before a failure stays written. -/
def inPlace {ε : Type} (part : σ → τ) (putPart : τ → σ → σ) (cause : ε → StreamError)
    (work : InPlace ε τ α) : Call σ α := fun _ s =>
  let (result, changed) := work.outcome (part s)
  { result := result.mapError cause, state := putPart changed s }

/-- Cleans up the state if the call fails. -/
def onError (cleanUp : σ → σ) (c : Call σ α) : Call σ α := fun store s =>
  let o := c store s
  match o.result with
  | .ok _ => o
  | .error _ => { o with state := cleanUp o.state }

/-- Cleans up the state after the call, whether it fails or not. -/
def ensuring (cleanUp : σ → σ) (c : Call σ α) : Call σ α := fun store s =>
  let o := c store s
  { o with state := cleanUp o.state }

/-- Asks the store for a page. -/
def readPage (table : TableId) (page : Nat) : Call σ (Array Row) := fun store s =>
  match store.readPage table page with
  | .ok rows => { result := .ok rows, state := s, reads := [table] }
  | .error e => { result := .error (.storage e), state := s }

/-- Asks the store for the number of pages of a table. -/
def numPages (table : TableId) : Call σ Nat := fun store s =>
  { result := (store.numPages table).mapError .storage, state := s }

end Call

end RowStream
