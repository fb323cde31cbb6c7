import RowStream.Proofs.Stream.Keeps
import RowStream.Proofs.Stream.Profile
import RowStream.Stream.Materialized
import RowStream.Stream.Sealed

/-!
# `RowStream.Proofs.Stream.Leaves` — profiles of rows at hand and of covers

A stream that has its rows at hand answers from what is left of them, which is its script; joins and
aggregates hand out their rows in the same way. A cover has the profile of what it covers.

## Contents
- `Replay.hasNext_some`, `Replay.next_some` — rows at hand answer as a script.
- `Replay.All`, `Replay.next_triple` — what holds of all rows that are still to come.
- `Materialized.profile_holds`, `Materialized.obeys`, `Materialized.stays` — rows at hand.
- `Sealed.profile_holds`, `Sealed.obeys`, `Sealed.stays` — covers.
-/

namespace RowStream

open Call

/-! ## Rows at hand -/

namespace Replay

/-- What is left of the rows as a script. -/
theorem hasNext_some (kind : StreamKind) (rows : List Row) :
    hasNext kind (some rows) = Script.hasNext ⟨rows, none⟩ := by
  cases rows <;> rfl

/-- Taking a row leaves the rest of the script. -/
theorem next_some (kind : StreamKind) (rows : List Row) :
    next kind (some rows) = (Script.next ⟨rows, none⟩).map fun row => (row, some rows.tail) := by
  cases rows <;> rfl

section All

variable {P : Row → Prop} {r r' : Replay} {kind : StreamKind} {row : Row}

/-- All rows that are still to come are of `P`. -/
def All (P : Row → Prop) (r : Replay) : Prop := ∀ rows ∈ r, ∀ row ∈ rows, P row

theorem all_none (P : Row → Prop) : All P none := nofun

theorem all_some {rows : List Row} : All P (some rows) ↔ ∀ row ∈ rows, P row := by
  constructor
  · intro h
    exact h rows rfl
  · rintro h _ ⟨⟩
    exact h

theorem all_true (r : Replay) : All (fun _ => True) r := fun _ _ _ _ => trivial

/-- A row that is taken is one of those that were still to come. -/
theorem all_next (h : r.All P) (hnext : r.next kind = .ok (row, r')) : P row ∧ r'.All P := by
  match r with
  | none => cases hnext
  | some [] => cases hnext
  | some (first :: rows) =>
    cases hnext
    have hall := all_some.1 h
    exact ⟨hall row List.mem_cons_self, all_some.2 fun r hr => hall r (List.mem_cons_of_mem _ hr)⟩

/-- Looking for a row has nothing to do with its columns. -/
theorem isTyping_of_hasNext {e : StreamError} (h : r.hasNext kind = .error e) :
    e.isTyping = false := by
  cases r with
  | none =>
    cases h
    rfl
  | some rows => cases h

/-- Nor has taking it. -/
theorem isTyping_of_next {e : StreamError} (h : r.next kind = .error e) : e.isTyping = false := by
  match r with
  | none =>
    cases h
    rfl
  | some [] =>
    cases h
    rfl
  | some (row :: rows) => cases h

variable {σ : Type} {store : PageStore} {F : StreamError → Prop} {I : σ → Prop}

/-- Whether a row is left is seen from the rows at hand. -/
theorem hasNext_triple (hF : ∀ e : StreamError, e.isTyping = false → F e) (kind : StreamKind)
    (pending : σ → Replay) :
    Triple store I (Call.get >>= fun s => Call.ofExcept ((pending s).hasNext kind)) (fun _ => I)
      (fun e s => F e ∧ I s) := by
  refine Triple.getBind fun s hs => Triple.ofExcept (fun _ _ ht _ => ht ▸ hs) ?_
  rintro t e rfl he
  exact ⟨hF e (isTyping_of_hasNext he), hs⟩

/-- A row is taken from the rows at hand. -/
theorem next_triple (hF : ∀ e : StreamError, e.isTyping = false → F e) (kind : StreamKind)
    (pending : σ → Replay) (put : Replay → σ → σ) (hall : ∀ s, I s → (pending s).All P)
    (hput : ∀ r s, I s → r.All P → I (put r s)) :
    Triple store I (do
        let s ← Call.get
        let (row, r) ← Call.ofExcept ((pending s).next kind)
        Call.modify (put r)
        return row)
      (fun row s => P row ∧ I s) (fun e s => F e ∧ I s) := by
  refine Triple.getBind fun s hs => ?_
  refine Triple.bind (R := fun taken t => (pending s).next kind = .ok taken ∧ I t)
    (Triple.ofExcept ?_ ?_) fun taken => Triple.given fun htaken => ?_
  · rintro t taken rfl htaken
    exact ⟨htaken, hs⟩
  · rintro t e rfl he
    exact ⟨hF e (isTyping_of_next he), hs⟩
  obtain ⟨row, r⟩ := taken
  obtain ⟨hrow, hr⟩ := all_next (hall s hs) htaken
  refine Triple.bind (R := fun _ => I) (Triple.modify fun t ht => hput r t ht hr) fun _ => ?_
  exact Triple.pure fun t ht => ⟨hrow, ht⟩

end All

end Replay

namespace Materialized

variable {store : PageStore}

/-- Rows at hand are given from the first one on after every start. -/
def profile (s₀ : Materialized) : Profile Materialized where
  schema := s₀.schema
  opening := .ok ⟨s₀.rows, none⟩
  own s := s.close = s₀.close
  resting s := s = s₀.close
  closed s := s = s₀.close
  shows script s := script.failure = none ∧ s = { s₀ with pending := some script.rows }

/-- Rows at hand refuse calls in the wrong state. -/
theorem guarded : Cursor.Guarded store fun s : Materialized => s.pending.isSome where
  start := by
    intro s hs
    have hstart : start store s =
        { result := .error (.usage (.alreadyOpen .materialized)), state := s } := by
      simp [start, bind, Call.bind, Call.get, Call.fail, Call.ofExcept, hs]
    exact ⟨.materialized, congrArg Outcome.result hstart, congrArg Outcome.state hstart⟩
  hasNext := by
    rintro ⟨schema, rows, _ | pending⟩ hs
    · exact ⟨.materialized, rfl, rfl⟩
    · cases hs
  next := by
    rintro ⟨schema, rows, _ | pending⟩ hs
    · exact ⟨.materialized, rfl, rfl⟩
    · cases hs
  rewind := by
    rintro ⟨schema, rows, _ | pending⟩ hs
    · exact ⟨.materialized, rfl, rfl⟩
    · cases hs

theorem plays (s₀ : Materialized) :
    Cursor.Plays store s₀.schema ⟨s₀.rows, none⟩ s₀.profile.shows where
  schema_eq := by
    rintro script s ⟨-, rfl⟩
    rfl
  hasNext := by
    rintro ⟨rows, _⟩ s ⟨rfl, rfl⟩
    exact ⟨Replay.hasNext_some .materialized rows, rfl, rfl⟩
  next := by
    rintro ⟨rows, _⟩ s ⟨rfl, rfl⟩
    cases rows with
    | nil => exact ⟨rfl, rfl, rfl⟩
    | cons row rows => exact ⟨rfl, rfl, rfl⟩
  rewind := by
    rintro script s ⟨-, rfl⟩
    exact ⟨rfl, rfl, rfl⟩

/-- Rows at hand are as their profile says. -/
theorem profile_holds (s₀ : Materialized) : s₀.profile.Holds store where
  own_of_resting := by
    rintro s rfl
    rfl
  resting_of_closed := id
  own_of_shows := by
    rintro script s ⟨-, rfl⟩
    rfl
  schema_eq := fun hs => (congrArg schema hs : _)
  close := id
  start := by
    rintro s rfl
    exact ⟨_, rfl, rfl, rfl⟩
  start_refused := by
    intro s hown hclosed
    -- only an open stream is not closed
    cases hp : s.pending with
    | none =>
      have hclose : s.close = s := by
        unfold Materialized.close
        rw [← hp]
      exact absurd (hclose.symm.trans hown) hclosed
    | some rows =>
      obtain ⟨kind, hres, hst⟩ := guarded.start (s := s) (by simp [hp] : s.pending.isSome = true)
      rintro _ rfl
      rw [hres, hst]
      exact ⟨hown, id⟩
  start_open := by
    rintro script s ⟨-, rfl⟩
    exact guarded.start rfl
  hasNext_resting := by
    rintro s rfl
    exact guarded.hasNext rfl
  next_resting := by
    rintro s rfl
    exact guarded.next rfl
  rewind_resting := by
    rintro s rfl
    exact guarded.rewind rfl
  plays := by
    rintro full ⟨⟩
    exact plays s₀

/-- The rows at hand `s₀`, with rows of `P` still to come. -/
def Carrying (P : Row → Prop) (s₀ s : Materialized) : Prop :=
  s.close = s₀.close ∧ Replay.All P s.pending

/-- Rows at hand give no other rows. -/
theorem obeys {P : Row → Prop} {s₀ : Materialized} (hrows : ∀ row ∈ s₀.rows, P row) :
    Cursor.Obeys store P (·.isTyping = false) (Carrying P s₀) := by
  have hfirst : ∀ s, Carrying P s₀ s → Carrying P s₀ { s with pending := some s.rows } := by
    rintro s ⟨hsame, -⟩
    have hsame' : s.rows = s₀.rows := (congrArg rows hsame : _)
    exact ⟨hsame, Replay.all_some.2 (hsame' ▸ hrows)⟩
  exact {
    start := by
      refine Triple.getBind fun s hs => ?_
      by_cases hopen : s.pending.isSome
      · rw [if_pos hopen]
        exact Triple.fail fun _ ht => ⟨rfl, ht ▸ hs⟩
      · rw [if_neg hopen]
        exact Triple.modify fun _ ht => ht ▸ hfirst s hs
    reads := {
      weaken := id
      hasNext := Replay.hasNext_triple (fun _ => id) .materialized pending
      next := Replay.next_triple (fun _ => id) .materialized pending
        (fun r s => { s with pending := r }) (fun _ hs => hs.2) (fun _ _ hs hr => ⟨hs.1, hr⟩)
      rewind := by
        refine Triple.getBind fun s hs => ?_
        by_cases hopen : s.pending.isNone
        · rw [if_pos hopen]
          exact Triple.fail fun _ ht => ⟨rfl, ht ▸ hs⟩
        · rw [if_neg hopen]
          exact Triple.modify fun _ ht => ht ▸ hfirst s hs }
    close := fun hs => ⟨hs.1, Replay.all_none P⟩ }

/-- No call changes what the rows at hand are. -/
theorem stays (s₀ : Materialized) : Cursor.Stays store s₀.profile.own := by
  have hobeys : Cursor.Obeys store (fun _ => True) (·.isTyping = false) (Carrying (fun _ => True) s₀) :=
    obeys fun _ _ => trivial
  exact (hobeys.congr fun s => ⟨fun hs => ⟨hs, Replay.all_true _⟩, And.left⟩).stays

end Materialized

/-! ## Covers -/

namespace Sealed

variable {σ : Type} [Cursor σ] {store : PageStore} {P : Profile σ}

/-- A cover is in the state of what it covers. -/
def profile (P : Profile σ) : Profile (Sealed σ) where
  schema := P.schema
  opening := P.opening
  own s := P.own s.inner
  resting s := P.resting s.inner
  closed s := P.closed s.inner
  shows script s := P.shows script s.inner

/-- A cover refuses what is refused inside. -/
theorem guarded {isOpen : σ → Bool} (h : Cursor.Guarded store isOpen) :
    Cursor.Guarded store fun s : Sealed σ => isOpen s.inner where
  start := by
    rintro ⟨s⟩ hs
    obtain ⟨kind, hres, hst⟩ := h.start hs
    exact ⟨kind, hres, congrArg mk hst⟩
  hasNext := by
    rintro ⟨s⟩ hs
    obtain ⟨kind, hres, hst⟩ := h.hasNext hs
    exact ⟨kind, hres, congrArg mk hst⟩
  next := by
    rintro ⟨s⟩ hs
    obtain ⟨kind, hres, hst⟩ := h.next hs
    exact ⟨kind, hres, congrArg mk hst⟩
  rewind := by
    rintro ⟨s⟩ hs
    obtain ⟨kind, hres, hst⟩ := h.rewind hs
    exact ⟨kind, hres, congrArg mk hst⟩

/-- A cover plays what it covers. -/
theorem plays {schema : Schema} {full : Script} {shows : Script → σ → Prop}
    (h : Cursor.Plays store schema full shows) :
    Cursor.Plays store schema full fun script (s : Sealed σ) => shows script s.inner where
  schema_eq := fun hs => h.schema_eq hs
  hasNext := fun script s hs => h.hasNext script s.inner hs
  next := fun hs => h.next hs
  rewind := fun hs => h.rewind hs

/-- Every call on a cover is the call on what it covers. -/
theorem profile_holds (h : P.Holds store) : (profile P).Holds store where
  own_of_resting := fun hs => h.own_of_resting hs
  resting_of_closed := fun hs => h.resting_of_closed hs
  own_of_shows := fun hs => h.own_of_shows hs
  schema_eq := fun hs => h.schema_eq hs
  close := fun hs => h.close hs
  start := fun s hs => h.start s.inner hs
  start_refused := by
    rintro s hs hclosed _ rfl
    exact h.start_refused hs hclosed _ rfl
  start_open := by
    rintro script ⟨s⟩ hs
    obtain ⟨kind, hres, hst⟩ := h.start_open hs
    exact ⟨kind, hres, congrArg mk hst⟩
  hasNext_resting := by
    rintro ⟨s⟩ hs
    obtain ⟨kind, hres, hst⟩ := h.hasNext_resting hs
    exact ⟨kind, hres, congrArg mk hst⟩
  next_resting := by
    rintro ⟨s⟩ hs
    obtain ⟨kind, hres, hst⟩ := h.next_resting hs
    exact ⟨kind, hres, congrArg mk hst⟩
  rewind_resting := by
    rintro ⟨s⟩ hs
    obtain ⟨kind, hres, hst⟩ := h.rewind_resting hs
    exact ⟨kind, hres, congrArg mk hst⟩
  plays := fun hfull => plays (h.plays hfull)

/-- A cover does as what it covers. -/
theorem obeys {Q : Row → Prop} {F : StreamError → Prop} {I : σ → Prop}
    (h : Cursor.Obeys store Q F I) : Cursor.Obeys store Q F fun s : Sealed σ => I s.inner where
  start := fun s hs => h.start s.inner hs
  reads := {
    weaken := id
    hasNext := fun s hs => h.reads.hasNext s.inner hs
    next := fun s hs => h.reads.next s.inner hs
    rewind := fun s hs => h.reads.rewind s.inner hs }
  close := fun hs => h.close hs

/-- A cover keeps what every call keeps of what it covers. -/
theorem stays {I : σ → Prop} (h : Cursor.Stays store I) :
    Cursor.Stays store fun s : Sealed σ => I s.inner := (obeys h.obeys).stays

end Sealed

end RowStream
