import RowStream.Proofs.Stream.Script

/-!
# `RowStream.Proofs.Stream.Reread` — streams that give the same rows again and again

A loop that reads a stream from its first row, as often as it likes, needs no more of it than this:
whatever was done before, a rewind succeeds and the rows that follow are always the same. Nothing is
said of the calls in between, so a stream may answer in the midst of a pass as it pleases, as long as
the pass comes out right.

## Contents
- `Cursor.recollect` — going back to the first row and reading all rows.
- `Cursor.Reaches`, `Cursor.Redrains` — what calls lead to, and a stream that gives the same rows from
  wherever they led.
- `Cursor.Gives` — one pass, round by round; `gives_of_drain`, `Gives.foldWith`, `Gives.fold`.
- `Cursor.Rereads` — loops over the stream compute what loops over its script do.
- `Redrains.rereads`, `Plays.rereads`, `Plays.redrains` — which streams do.
-/

namespace RowStream

namespace Cursor

open Call

variable {σ τ β : Type} [Cursor σ] {store : PageStore}

/-- Goes back to the first row and reads all rows. -/
def recollect : Call σ (List Row) := do
  rewind
  drain

/-- While the store stays as it is, calls on an open stream lead from one state to another. -/
inductive Reaches (store : PageStore) (s : σ) : σ → Prop where
  /-- No call was made. -/
  | refl : Reaches store s s
  /-- A look for a row. -/
  | hasNext {t : σ} : Reaches store s t → Reaches store s (Cursor.hasNext store t).state
  /-- A row that is taken. -/
  | next {t : σ} : Reaches store s t → Reaches store s (Cursor.next store t).state
  /-- A rewind. -/
  | rewind {t : σ} : Reaches store s t → Reaches store s (Cursor.rewind store t).state

theorem Reaches.trans {s t u : σ} (hst : Reaches store s t) (htu : Reaches store t u) :
    Reaches store s u := by
  induction htu with
  | refl => exact hst
  | hasNext _ ih => exact ih.hasNext
  | next _ ih => exact ih.next
  | rewind _ ih => exact ih.rewind

/-- Wherever calls lead from `s`, a rewind and a pass to the end give the same rows. -/
def Redrains (store : PageStore) (rows : List Row) (s : σ) : Prop :=
  ∀ t, Reaches store s t → (recollect store t).result = .ok rows

/-! ## One pass -/

/-- A pass to the end gives these rows. -/
inductive Gives (store : PageStore) : σ → List Row → Prop where
  /-- No row is left. -/
  | nil {s : σ} : (Cursor.hasNext store s).result = .ok false → Gives store s []
  /-- One row, and then the others. -/
  | cons {s : σ} {row : Row} {rows : List Row} :
    (Cursor.hasNext store s).result = .ok true →
    (Cursor.next store (Cursor.hasNext store s).state).result = .ok row →
    Gives store (Cursor.next store (Cursor.hasNext store s).state).state rows →
    Gives store s (row :: rows)

/-- Rows that were collected behind others are the rows of a pass. -/
theorem gives_of_push {s : σ} {acc all : Array Row}
    (h : (foldWith (fun rows row => Call.ofExcept (.ok (rows.push row))) acc store
      (s, ())).result = .ok all) :
    ∃ rows, all.toList = acc.toList ++ rows ∧ Gives store s rows := by
  -- every row that is taken lowers the bound on the rows to come
  induction hn : remaining store s using Nat.strongRecOn generalizing s acc with
  | ind n ih =>
    rw [Triple.foldWith_eq] at h
    obtain ⟨more, hmore, h, -⟩ := ok_of_bind h
    have hle := remaining_hasNext store s
    cases more with
    | false =>
      cases h
      exact ⟨[], (List.append_nil _).symm, .nil hmore⟩
    | true =>
      obtain ⟨row, hrow, h, -⟩ := ok_of_bind h
      obtain ⟨_, hpush, h, -⟩ := ok_of_bind h
      cases hpush
      have hlt := remaining_next store _ row hrow
      obtain ⟨rows, hall, hgives⟩ := ih _ (hn ▸ Nat.lt_of_lt_of_le hlt hle) h rfl
      refine ⟨row :: rows, ?_, .cons hmore hrow hgives⟩
      rw [hall, Array.toList_push, List.append_assoc]
      rfl

/-- All rows that are collected are the rows of a pass. -/
theorem gives_of_drain {s : σ} {rows : List Row} (h : (drain store s).result = .ok rows) :
    Gives store s rows := by
  obtain ⟨all, hall, hrows, -⟩ := ok_of_bind h
  cases hrows
  obtain ⟨rows, hrows, hgives⟩ := gives_of_push hall
  rw [hrows]
  exact hgives

/-- A loop over the rows of a pass, if its step on the second state is known. -/
theorem Gives.foldWith {s : σ} {rows : List Row} (h : Gives store s rows) {F : τ → Prop}
    {step : β → Row → Call τ β} {f : β → Row → Except StreamError β}
    (hstep : ∀ b row, Computes store F (step b row) (f b row)) {t : τ} (ht : F t) (b : β) :
    (Cursor.foldWith step b store (s, t)).result = Script.foldM f b ⟨rows, none⟩ ∧
      Reaches store s (Cursor.foldWith step b store (s, t)).state.1 ∧
      F (Cursor.foldWith step b store (s, t)).state.2 := by
  induction h generalizing t b with
  | @nil s hmore =>
    rw [Triple.foldWith_eq, onLeft_bind_of_ok hmore]
    exact ⟨rfl, Reaches.refl.hasNext, ht⟩
  | @cons s row rows hmore hrow _ ih =>
    rw [Triple.foldWith_eq, onLeft_bind_of_ok hmore]
    simp only [if_true]
    rw [onLeft_bind_of_ok hrow, Script.foldM_cons]
    have htaken : Reaches store s (Cursor.next store (Cursor.hasNext store s).state).state :=
      Reaches.refl.hasNext.next
    obtain ⟨hres, ht'⟩ := hstep b row t ht
    cases hf : f b row with
    | ok b' =>
      rw [hf] at hres
      rw [onRight_bind_of_ok hres]
      obtain ⟨hrest, hreached, hF⟩ := ih ht' b'
      exact ⟨hrest, htaken.trans hreached, hF⟩
    | error e =>
      rw [hf] at hres
      rw [onRight_bind_of_error hres]
      exact ⟨rfl, htaken, ht'⟩

/-- What a loop with a pure step makes of the rows of a pass. -/
theorem Gives.fold {s : σ} {rows : List Row} (h : Gives store s rows)
    (f : β → Row → Except StreamError β) (b : β) :
    (Cursor.fold f b store s).result = Script.foldM f b ⟨rows, none⟩ :=
  (h.foldWith (F := fun _ : Unit => True) (fun b row => Computes.ofExcept (f b row)) trivial b).1

/-! ## Any number of passes -/

/-- From every state with `I`, going back and reading to the end is reading `full`, whatever is done
with the rows, and leads to a state with `I` again. -/
def Rereads (store : PageStore) (full : Script) (I : σ → Prop) : Prop :=
  ∀ {τ β : Type} {F : τ → Prop} {step : β → Row → Call τ β} {f : β → Row → Except StreamError β},
    (∀ b row, Computes store F (step b row) (f b row)) → ∀ b,
      Computes store (fun s : σ × τ => I s.1 ∧ F s.2)
        (Call.onLeft Cursor.rewind >>= fun _ => Cursor.foldWith step b) (full.foldM f b)

/-- Where the rows are read with a pure step. -/
theorem Rereads.fold {full : Script} {I : σ → Prop} (h : Rereads store full I)
    (f : β → Row → Except StreamError β) (b : β) :
    Computes store I (Cursor.rewind >>= fun _ => Cursor.fold f b) (full.foldM f b) := by
  intro s hs
  -- the second state is idle
  obtain ⟨hres, hI, -⟩ := h (F := fun _ : Unit => True)
    (fun b row => Computes.ofExcept (f b row)) b (s, ()) ⟨hs, trivial⟩
  cases hrewind : (Cursor.rewind store s).result with
  | ok u =>
    rw [onLeft_bind_of_ok hrewind] at hres hI
    rw [bind_of_ok hrewind]
    exact ⟨hres, hI⟩
  | error e =>
    rw [onLeft_bind_of_error hrewind] at hres hI
    rw [bind_of_error hrewind]
    exact ⟨hres, hI⟩

/-- A stream that gives the same rows again and again is read as the list of these rows. -/
theorem Redrains.rereads {rows : List Row} {s : σ} (h : Redrains store rows s) :
    Rereads store ⟨rows, none⟩ (Reaches store s) := by
  rintro τ β F step f hstep b ⟨t, u⟩ ⟨ht, hu⟩
  obtain ⟨_, hrewind, hdrain, -⟩ := ok_of_bind (h t ht)
  rw [onLeft_bind_of_ok hrewind]
  obtain ⟨hres, hreached, hF⟩ := (gives_of_drain hdrain).foldWith hstep hu b
  exact ⟨hres, ht.rewind.trans hreached, hF⟩

section Plays

variable {schema : Schema} {full : Script} {shows : Script → σ → Prop}

/-- A stream that plays a script is read as that script. -/
theorem Plays.rereads (h : Plays store schema full shows) : Rereads store full (Playing shows) :=
  fun hstep b => h.rewindFoldWith hstep b

/-- A stream that plays a script goes on playing it. -/
theorem Plays.playing_of_reaches (h : Plays store schema full shows) {s t : σ}
    (hs : Playing shows s) (hst : Reaches store s t) : Playing shows t := by
  induction hst with
  | refl => exact hs
  | hasNext _ ih =>
    obtain ⟨script, ht⟩ := ih
    exact ⟨script, (h.hasNext script _ ht).2⟩
  | next _ ih =>
    obtain ⟨script, ht⟩ := ih
    exact ⟨script.tail, (h.next ht).2⟩
  | rewind _ ih =>
    obtain ⟨script, ht⟩ := ih
    exact ⟨full, (h.rewind ht).2⟩

/-- A stream that plays a script which ends gives its rows again and again. -/
theorem Plays.redrains {rows : List Row} (h : Plays store schema ⟨rows, none⟩ shows) {s : σ}
    (hs : Playing shows s) : Redrains store rows s := by
  intro t hst
  obtain ⟨script, ht⟩ := h.playing_of_reaches hs hst
  obtain ⟨hres, hshows⟩ := h.rewind ht
  unfold recollect
  rw [bind_of_ok hres]
  exact (h.tells.drain hshows).1

end Plays

end Cursor

end RowStream
