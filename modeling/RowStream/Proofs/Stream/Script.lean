import RowStream.Proofs.Stream.Triple

/-!
# `RowStream.Proofs.Stream.Script` — what an open stream still has to give

While the store does not change, an open stream is known by its script: the rows that are still to
come, and the failure behind them if the stream breaks off instead of ending. A stream that plays
its script answers every call as the script says, and can be sent back to the first row at any time.

## Contents
- `Script` — rows and what comes behind them, with the answers that a script gives.
- `Script.foldM` — reading a script to its end.
- `Cursor.Playing`, `Cursor.Tells`, `Cursor.Plays` — a family of states that answer as their scripts
  say, and can be sent back besides.
- `Cursor.Remains` — what is still to come of a stream in the midst of a loop.
- `Tells.foldWith`, `Tells.drain`, `Plays.rewindFoldWith` — reading a stream is reading its script.
-/

namespace RowStream

/-- The rows that are still to come, and the failure behind them, if there is one. -/
structure Script where
  /-- The rows. -/
  rows : List Row
  /-- Why the stream breaks off behind the rows. -/
  failure : Option StreamError := none
  deriving DecidableEq, Repr

namespace Script

variable {β : Type}

/-- Whether there is a next row. -/
def hasNext : Script → Except StreamError Bool
  | ⟨_ :: _, _⟩ => .ok true
  | ⟨[], none⟩ => .ok false
  | ⟨[], some e⟩ => .error e

/-- The next row. -/
def next : Script → Except StreamError Row
  | ⟨row :: _, _⟩ => .ok row
  | ⟨[], none⟩ => .error .exhausted
  | ⟨[], some e⟩ => .error e

/-- The script behind the next row. -/
def tail (s : Script) : Script := { s with rows := s.rows.tail }

/-- The script with more rows in front. -/
def after (rows : List Row) (s : Script) : Script := { s with rows := rows ++ s.rows }

/-- The end of the script: nothing, or the failure. -/
def finish (s : Script) (b : β) : Except StreamError β :=
  match s.failure with
  | none => .ok b
  | some e => .error e

/-- Reads the script to its end with a step for each row. -/
def foldM (f : β → Row → Except StreamError β) (b : β) (s : Script) : Except StreamError β :=
  s.rows.foldlM f b >>= s.finish

/-- All rows of the script. -/
def drain (s : Script) : Except StreamError (List Row) := s.finish s.rows

@[simp] theorem foldM_nil (f : β → Row → Except StreamError β) (b : β)
    (failure : Option StreamError) : foldM f b ⟨[], failure⟩ = finish ⟨[], failure⟩ b := rfl

theorem foldM_cons (f : β → Row → Except StreamError β) (b : β) (row : Row) (rows : List Row)
    (failure : Option StreamError) :
    foldM f b ⟨row :: rows, failure⟩ = f b row >>= fun b => foldM f b ⟨rows, failure⟩ := by
  unfold foldM
  rw [List.foldlM_cons, bind_assoc]
  rfl

/-- A script that does not break off is read as the list of its rows is. -/
theorem foldM_of_ends {s : Script} (h : s.failure = none) (f : β → Row → Except StreamError β)
    (b : β) : s.foldM f b = s.rows.foldlM f b := by
  unfold foldM finish
  rw [h]
  exact bind_pure (s.rows.foldlM f b)

/-- Reading with a step that never fails. -/
theorem foldM_pure (f : β → Row → β) (rows : List Row) (b : β) :
    foldM (fun b row => .ok (f b row)) b ⟨rows, none⟩ = .ok (rows.foldl f b) := by
  induction rows generalizing b with
  | nil => rfl
  | cons row rows ih =>
    rw [foldM_cons]
    exact ih (f b row)

/-- A step that never fails and keeps an invariant of the rows that were read so far. -/
theorem foldM_induct {I : List Row → β → Prop} {f : β → Row → Except StreamError β}
    (hstep : ∀ seen b row, I seen b → ∃ b', f b row = .ok b' ∧ I (seen ++ [row]) b')
    (rows : List Row) {b : β} (h : I [] b) :
    ∃ b', foldM f b ⟨rows, none⟩ = .ok b' ∧ I rows b' := by
  suffices go : ∀ seen b, I seen b → ∃ b', foldM f b ⟨rows, none⟩ = .ok b' ∧ I (seen ++ rows) b' from
    go [] b h
  induction rows with
  | nil =>
    intro seen b h
    exact ⟨b, rfl, by rwa [List.append_nil]⟩
  | cons row rows ih =>
    intro seen b h
    obtain ⟨b', hb', h'⟩ := hstep seen b row h
    obtain ⟨b'', hb'', h''⟩ := ih (seen ++ [row]) b' h'
    refine ⟨b'', ?_, by rwa [List.append_assoc] at h''⟩
    rw [foldM_cons, hb']
    exact hb''

/-- Collecting the rows one by one gives all of them. -/
theorem foldM_push (s : Script) (rows : Array Row) :
    s.foldM (fun rows row => .ok (rows.push row)) rows = s.finish (rows ++ s.rows) := by
  obtain ⟨more, failure⟩ := s
  induction more generalizing rows with
  | nil => simp
  | cons row more ih =>
    rw [foldM_cons]
    show foldM _ (rows.push row) ⟨more, failure⟩ = _
    rw [ih]
    simp [finish]

end Script

namespace Cursor

open Call

/-- The stream is open and gives some script. -/
def Playing {σ : Type} (shows : Script → σ → Prop) (s : σ) : Prop :=
  ∃ script, shows script s

variable {σ τ β : Type} [Cursor σ] {store : PageStore}

/-- While `store` stays as it is, a state with `shows script` is an open stream that gives `script`. -/
structure Tells (store : PageStore) (shows : Script → σ → Prop) : Prop where
  /-- Looking for a row takes nothing from the script. -/
  hasNext : ∀ script, Computes store (shows script) Cursor.hasNext script.hasNext
  /-- The next row is the first of the script. -/
  next : ∀ {script s}, shows script s →
    (Cursor.next store s).result = script.next ∧ shows script.tail (Cursor.next store s).state

/-- While `store` stays as it is, a state with `shows script` is an open stream that gives `script`;
a rewind leads to `full`, and the columns are `schema`. -/
structure Plays (store : PageStore) (schema : Schema) (full : Script)
    (shows : Script → σ → Prop) : Prop where
  /-- The columns stay. -/
  schema_eq : ∀ {script s}, shows script s → Cursor.schema s = schema
  /-- Looking for a row takes nothing from the script. -/
  hasNext : ∀ script, Computes store (shows script) Cursor.hasNext script.hasNext
  /-- The next row is the first of the script. -/
  next : ∀ {script s}, shows script s →
    (Cursor.next store s).result = script.next ∧ shows script.tail (Cursor.next store s).state
  /-- A rewind leads to the whole script. -/
  rewind : ∀ {script s}, shows script s →
    (Cursor.rewind store s).result = .ok () ∧ shows full (Cursor.rewind store s).state

/-- What is still to come of the stream satisfies `P`, and the second state is in `F`. -/
def Remains (shows : Script → σ → Prop) (F : τ → Prop) (P : Script → Prop) (s : σ × τ) : Prop :=
  ∃ script, shows script s.1 ∧ F s.2 ∧ P script

section Reading

variable {schema : Schema} {full : Script} {shows : Script → σ → Prop} {F : τ → Prop}
  {f : β → Row → Except StreamError β} {r : Except StreamError β} {b : β}

theorem Plays.tells (h : Plays store schema full shows) : Tells store shows := ⟨h.hasNext, h.next⟩

namespace Tells

/-- At the end of the script, what was read is the result. -/
theorem hasNext_remains (h : Tells store shows) :
    Triple store (Remains shows F (fun script => script.foldM f b = r)) (Call.onLeft Cursor.hasNext)
      (fun more s => if more then
          Remains shows F (fun script => script.hasNext = .ok true ∧ script.foldM f b = r) s
        else r = .ok b ∧ Remains shows F (fun _ => True) s)
      (fun e s => r = .error e ∧ Remains shows F (fun _ => True) s) := by
  refine Triple.zoom ?_
  rintro ⟨s, t⟩ ⟨script, hs, ht, hr⟩ s rfl
  obtain ⟨hres, hs'⟩ := h.hasNext script s hs
  rw [hres]
  obtain ⟨rows, failure⟩ := script
  cases rows with
  | cons row rows => exact ⟨_, hs', ht, rfl, hr⟩
  | nil => cases failure <;> exact ⟨hr.symm, _, hs', ht, trivial⟩

/-- Taking a row leaves a step with that row to be done. -/
theorem next_remains (h : Tells store shows) :
    Triple store
      (Remains shows F (fun script => script.hasNext = .ok true ∧ script.foldM f b = r))
      (Call.onLeft Cursor.next)
      (fun row => Remains shows F (fun script => (f b row >>= (script.foldM f ·)) = r))
      (fun e s => r = .error e ∧ Remains shows F (fun _ => True) s) := by
  refine Triple.zoom ?_
  rintro ⟨s, t⟩ ⟨⟨rows, failure⟩, hs, ht, hmore, hr⟩ s rfl
  obtain ⟨hres, hs'⟩ := h.next hs
  rw [hres]
  cases rows with
  | cons row rows =>
    rw [Script.foldM_cons] at hr
    exact ⟨_, hs', ht, hr⟩
  | nil => cases failure <;> cases hmore

omit [Cursor σ] in
/-- The step leads on to the rest of the script, or its failure is the result. -/
theorem step_remains {step : β → Row → Call τ β} {row : Row}
    (hstep : Computes store F (step b row) (f b row)) :
    Triple store (Remains shows F (fun script => (f b row >>= (script.foldM f ·)) = r))
      (Call.onRight (step b row))
      (fun b => Remains shows F (fun script => script.foldM f b = r))
      (fun e s => r = .error e ∧ Remains shows F (fun _ => True) s) := by
  refine Triple.zoom ?_
  rintro ⟨s, t⟩ ⟨script, hs, ht, hr⟩ t rfl
  obtain ⟨hres, ht'⟩ := hstep t ht
  rw [hres]
  cases hf : f b row with
  | ok b' =>
    rw [hf] at hr
    exact ⟨script, hs, ht', hr⟩
  | error e =>
    rw [hf] at hr
    exact ⟨hr.symm, script, hs, ht', trivial⟩

/-- Reading a stream to its end is reading its script, if the step on the second state is known. -/
theorem foldWith (h : Tells store shows) {step : β → Row → Call τ β}
    (hstep : ∀ b row, Computes store F (step b row) (f b row)) {script : Script} {s : σ} {t : τ}
    (hs : shows script s) (ht : F t) (b : β) :
    (Cursor.foldWith step b store (s, t)).result = script.foldM f b ∧
      Playing shows (Cursor.foldWith step b store (s, t)).state.1 ∧
      F (Cursor.foldWith step b store (s, t)).state.2 := by
  -- the invariant: what is left of the script leads to the same result `r`
  obtain ⟨r, hr⟩ : ∃ r, script.foldM f b = r := ⟨_, rfl⟩
  have loop := Triple.foldWith (fun b => h.hasNext_remains (F := F) (f := f) (r := r) (b := b))
    (fun b => h.next_remains) (fun b row => step_remains (hstep b row)) b
  have hend := loop (s, t) ⟨script, hs, ht, hr⟩
  rw [hr]
  cases hres : (Cursor.foldWith step b store (s, t)).result with
  | ok b' =>
    rw [hres] at hend
    obtain ⟨rfl, script', hs', ht', -⟩ := hend
    exact ⟨rfl, ⟨script', hs'⟩, ht'⟩
  | error e =>
    rw [hres] at hend
    obtain ⟨rfl, script', hs', ht', -⟩ := hend
    exact ⟨rfl, ⟨script', hs'⟩, ht'⟩

/-- Reading a stream to its end with a pure step. -/
theorem fold (h : Tells store shows) (f : β → Row → Except StreamError β) (b : β)
    {script : Script} {s : σ} (hs : shows script s) :
    (Cursor.fold f b store s).result = script.foldM f b ∧
      Playing shows (Cursor.fold f b store s).state := by
  have hread := h.foldWith (F := fun _ : Unit => True) (f := f)
    (fun b row => Computes.ofExcept (f b row)) hs (t := ()) trivial b
  exact ⟨hread.1, hread.2.1⟩

/-- Collecting the rows of a stream gives those of its script. -/
theorem drain (h : Tells store shows) {script : Script} {s : σ} (hs : shows script s) :
    (Cursor.drain store s).result = script.drain ∧
      Playing shows (Cursor.drain store s).state := by
  obtain ⟨hres, hs'⟩ := h.fold (fun rows row => .ok (rows.push row)) (#[] : Array Row) hs
  rw [Script.foldM_push] at hres
  unfold Cursor.drain
  obtain ⟨hr, hst⟩ := bind_return store (Cursor.fold _ _) Array.toList s
  rw [hr, hst, hres]
  refine ⟨?_, hs'⟩
  unfold Script.drain Script.finish
  cases script.failure <;> simp [Except.map]

end Tells

namespace Plays

/-- Reading a stream from its first row, whatever was read before, is reading the whole script. -/
theorem rewindFoldWith (h : Plays store schema full shows) {step : β → Row → Call τ β}
    (hstep : ∀ b row, Computes store F (step b row) (f b row)) (b : β) :
    Computes store (fun s : σ × τ => Playing shows s.1 ∧ F s.2)
      (Call.onLeft Cursor.rewind >>= fun _ => Cursor.foldWith step b) (full.foldM f b) := by
  rintro ⟨s, t⟩ ⟨⟨script, hs⟩, ht⟩
  obtain ⟨hres, hs'⟩ := h.rewind hs
  rw [bind_of_ok (c := Call.onLeft Cursor.rewind) (a := ()) hres]
  exact h.tells.foldWith hstep hs' ht b

end Plays

end Reading

end Cursor

end RowStream
