import RowStream.Proofs.Stream.Script

/-!
# `RowStream.Proofs.Stream.Profile` — a stream seen from outside

While the store does not change, what can be seen of a stream is fixed: its columns, and the script
or the failure that every start leads to. A profile says this and tells apart the states in which
the stream can be. That a profile holds is what a stream promises to the stream above it, so it is
proved for one kind of stream at a time.

## Contents
- `Call.Refuses`, `Cursor.Guarded` — calls in the wrong state, which change nothing.
- `Profile`, `Profile.Holds` — what is known of a stream, and that it is true.
- `Cursor.collect` — starting a stream and reading all of it.
- `Holds.collect`, `Holds.collect_of_opening`, `Holds.closed_of_collect` — what is collected is the
  script of the start.
-/

namespace RowStream

open Call

/-- The call is out of place: it fails, for the given cause, and changes nothing. -/
def Call.Refuses {σ α : Type} (store : PageStore) (c : Call σ α)
    (cause : StreamKind → UsageError) (s : σ) : Prop :=
  ∃ kind, (c store s).result = .error (.usage (cause kind)) ∧ (c store s).state = s

/-- What is refused is refused, too, where its answer is only put differently. -/
theorem Call.Refuses.map {σ α β : Type} {store : PageStore} {c : Call σ α}
    {cause : StreamKind → UsageError} {s : σ} (h : Refuses store c cause s) (f : α → β) :
    Refuses store (c >>= fun a => return f a) cause s := by
  obtain ⟨kind, hres, hst⟩ := h
  obtain ⟨hr, ht⟩ := bind_return store c f s
  refine ⟨kind, ?_, ?_⟩
  · rw [hr, hres]
    rfl
  · rw [ht, hst]

/-- What is refused changes nothing. -/
theorem Call.Refuses.triple {σ α : Type} {store : PageStore} {c : Call σ α}
    {cause : StreamKind → UsageError} {P : σ → Prop} (h : ∀ s, P s → Refuses store c cause s) :
    Triple store P c (fun _ _ => False) (fun _ => P) := by
  intro s hs
  obtain ⟨kind, hres, hst⟩ := h s hs
  rw [hres, hst]
  exact hs

/-- A stream refuses the calls that do not fit its state. -/
structure Cursor.Guarded {σ : Type} [Cursor σ] (store : PageStore) (isOpen : σ → Bool) : Prop where
  /-- An open stream is not started. -/
  start : ∀ {s}, isOpen s = true → Refuses store Cursor.start .alreadyOpen s
  /-- A closed stream is not looked at. -/
  hasNext : ∀ {s}, isOpen s = false → Refuses store Cursor.hasNext .notOpen s
  /-- A closed stream gives no row. -/
  next : ∀ {s}, isOpen s = false → Refuses store Cursor.next .notOpen s
  /-- A closed stream is not sent back. -/
  rewind : ∀ {s}, isOpen s = false → Refuses store Cursor.rewind .notOpen s

/-- Starts a stream and reads all of it. -/
def Cursor.collect {σ : Type} [Cursor σ] : Call σ (List Row) := do
  Cursor.start
  Cursor.drain

/-- What is known of a stream while the store stays as it is. -/
structure Profile (σ : Type) where
  /-- The columns of the rows. -/
  schema : Schema
  /-- The script that a start leads to, or why there is none. -/
  opening : Except StreamError Script
  /-- The states of the stream. -/
  own : σ → Prop
  /-- Of these, the ones in which the stream is closed, whatever the streams below it are. -/
  resting : σ → Prop
  /-- Of these, the ones in which the streams below it are closed, too. -/
  closed : σ → Prop
  /-- The states in which the stream is open and gives a script. -/
  shows : Script → σ → Prop

namespace Profile

variable {σ : Type} [Cursor σ] {store : PageStore} {P : Profile σ}

/-- The stream is as the profile says. -/
structure Holds (store : PageStore) (P : Profile σ) : Prop where
  /-- A stream that rests is the stream. -/
  own_of_resting : ∀ {s}, P.resting s → P.own s
  /-- Where all is closed, the stream rests. -/
  resting_of_closed : ∀ {s}, P.closed s → P.resting s
  /-- An open stream is the stream. -/
  own_of_shows : ∀ {script s}, P.shows script s → P.own s
  /-- The columns stay. -/
  schema_eq : ∀ {s}, P.own s → Cursor.schema s = P.schema
  /-- Closing closes all. -/
  close : ∀ {s}, P.own s → P.closed (Cursor.close s)
  /-- Where all is closed, a start leads to the script of the opening or fails as that does, and
  then all is closed again. -/
  start : Triple store P.closed Cursor.start
    (fun _ s => ∃ full, P.opening = .ok full ∧ P.shows full s)
    (fun e s => P.opening = .error e ∧ P.closed s)
  /-- Anywhere else a start fails, and a stream that rests goes on doing so. -/
  start_refused : ∀ {s}, P.own s → ¬ P.closed s → Triple store (· = s) Cursor.start
    (fun _ _ => False) (fun _ t => P.own t ∧ (P.resting s → P.resting t))
  /-- An open stream is not started. -/
  start_open : ∀ {script s}, P.shows script s → Refuses store Cursor.start .alreadyOpen s
  /-- A stream that rests is not looked at. -/
  hasNext_resting : ∀ {s}, P.resting s → Refuses store Cursor.hasNext .notOpen s
  /-- A stream that rests gives no row. -/
  next_resting : ∀ {s}, P.resting s → Refuses store Cursor.next .notOpen s
  /-- A stream that rests is not sent back. -/
  rewind_resting : ∀ {s}, P.resting s → Refuses store Cursor.rewind .notOpen s
  /-- An open stream plays its script. -/
  plays : ∀ {full}, P.opening = .ok full → Cursor.Plays store P.schema full P.shows

namespace Holds

/-- A start keeps to the stream, and if it succeeds it found all closed. -/
theorem start_own (h : P.Holds store) {s : σ} (hs : P.own s) :
    Triple store (· = s) Cursor.start (fun _ t => P.closed s ∧ P.own t) (fun _ t => P.own t) := by
  by_cases hclosed : P.closed s
  · refine h.start.imp (fun _ ht => ht ▸ hclosed) ?_ ?_
    · rintro _ t ⟨full, -, ht⟩
      exact ⟨hclosed, h.own_of_shows ht⟩
    · rintro e t ⟨-, ht⟩
      exact h.own_of_resting (h.resting_of_closed ht)
  · exact (h.start_refused hs hclosed).imp (fun _ => id) (fun _ _ => False.elim) (fun _ _ => And.left)

/-- Where all is closed, a start succeeds or fails as the opening does. -/
theorem start_result (h : P.Holds store) {s : σ} (hs : P.closed s) :
    (Cursor.start store s).result = P.opening.map fun _ => () := by
  cases hr : (Cursor.start store s).result with
  | ok u =>
    obtain ⟨full, hfull, -⟩ := h.start.of_ok hs hr
    rw [hfull]
    rfl
  | error e =>
    rw [(h.start.of_error hs hr).1]
    rfl

/-- Where all is closed, a start that leads to a script succeeds. -/
theorem start_of_opening (h : P.Holds store) {s : σ} (hs : P.closed s) {full : Script}
    (hopening : P.opening = .ok full) : (Cursor.start store s).result = .ok () := by
  rw [h.start_result hs, hopening]
  rfl

/-- What is collected is the whole script of the opening. -/
theorem collect (h : P.Holds store) {s : σ} (hs : P.closed s) :
    (Cursor.collect store s).result = P.opening >>= Script.drain := by
  unfold Cursor.collect
  cases hr : (Cursor.start store s).result with
  | ok u =>
    obtain ⟨full, hfull, hshows⟩ := h.start.of_ok hs hr
    rw [bind_of_ok hr, hfull]
    exact ((h.plays hfull).tells.drain hshows).1
  | error e =>
    rw [bind_of_error hr, (h.start.of_error hs hr).1]
    rfl

/-- What opens with these rows gives them. -/
theorem collect_of_opening (h : P.Holds store) {s : σ} (hs : P.closed s) {rows : List Row}
    (hopening : P.opening = .ok ⟨rows, none⟩) : (Cursor.collect store s).result = .ok rows := by
  rw [h.collect hs, hopening]
  rfl

/-- What can be collected was closed, and its script does not break off. -/
theorem closed_of_collect (h : P.Holds store) {s : σ} (hs : P.own s) {rows : List Row}
    (hrows : (Cursor.collect store s).result = .ok rows) :
    P.closed s ∧ P.opening = .ok ⟨rows, none⟩ := by
  have hclosed : P.closed s := by
    cases hr : (Cursor.start store s).result with
    | ok u => exact ((h.start_own hs).of_ok rfl hr).1
    | error e =>
      unfold Cursor.collect at hrows
      rw [bind_of_error hr] at hrows
      cases hrows
  refine ⟨hclosed, ?_⟩
  rw [h.collect hclosed] at hrows
  cases hopening : P.opening with
  | error e =>
    rw [hopening] at hrows
    cases hrows
  | ok full =>
    obtain ⟨all, failure⟩ := full
    rw [hopening] at hrows
    cases failure with
    | none => cases hrows; rfl
    | some e => cases hrows

end Holds

end Profile

end RowStream
