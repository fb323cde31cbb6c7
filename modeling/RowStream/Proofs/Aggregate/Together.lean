import RowStream.Proofs.Aggregate.Profile
import RowStream.Proofs.Stream.Together

/-!
# `RowStream.Proofs.Aggregate.Together` — an aggregate opens and closes with its child

An aggregate that cannot read its child to the end, or that has no rows for its groups, closes the
child. Once it is open, its groups have rows, so that it can always be sent back.

## Contents
- `Grouping.isUsage_of_merge`, `Grouping.isUsage_of_rows` — why groups are refused.
- `Aggregate.together` — an aggregate opens and closes as a whole if its child does.
-/

namespace RowStream

namespace Grouping

theorem isUsage_of_key {g : Grouping} {row : Row} {e : StreamError} (h : g.key row = .error e) :
    e.isUsage = false := by
  unfold key at h
  cases hgroup : g.group with
  | none =>
    rw [hgroup] at h
    cases h
  | some group =>
    simp only [hgroup] at h
    by_cases hlength : row.length ≤ group.1
    · rw [if_pos hlength] at h
      cases h
      rfl
    · rw [if_neg hlength] at h
      cases hv : row.get? group.1 <;> simp [hv] at h

theorem isUsage_of_cell {g : Grouping} {row : Row} {e : StreamError} (h : g.cell row = .error e) :
    e.isUsage = false := by
  unfold cell at h
  by_cases hcount : g.fn = .count
  · rw [if_pos hcount] at h
    cases h
  rw [if_neg hcount] at h
  cases hv : row.get? g.field with
  | none =>
    rw [hv] at h
    cases h
  | some v =>
    simp only [hv] at h
    unfold numeric at h
    -- a string where a number should be, or in a column of strings
    cases htype : g.inputType <;> cases v <;> rw [htype] at h <;> cases h <;> rfl

/-- A row is never refused for the state of a stream. -/
theorem isUsage_of_merge {g : Grouping} {row : Row} {e : StreamError} (h : g.merge row = .error e) :
    e.isUsage = false := by
  unfold merge at h
  by_cases hlength : row.length ≤ g.field
  · rw [if_pos hlength] at h
    cases h
    rfl
  rw [if_neg hlength] at h
  cases hkey : g.key row with
  | error cause =>
    simp only [hkey, bind, Except.bind, Except.error.injEq] at h
    exact h ▸ isUsage_of_key hkey
  | ok key =>
    cases hcell : g.cell row with
    | error cause =>
      simp only [hkey, hcell, bind, Except.bind, Except.error.injEq] at h
      exact h ▸ isUsage_of_cell hcell
    | ok cell =>
      cases hacc : (g.accumulator key).merge cell with
      | ok acc => simp [hkey, hcell, hacc, bind, Except.bind, pure, Except.pure] at h
      | error cause =>
        simp only [hkey, hcell, hacc, bind, Except.bind, Except.error.injEq] at h
        obtain ⟨total, i, -, -, -, rfl⟩ := Accumulator.merge_eq_error_iff.1 hacc
        exact h ▸ rfl

/-- Groups are never refused their rows for the state of a stream. -/
theorem isUsage_of_rows [Listing] {g : Grouping} {schema : Schema} {e : StreamError}
    (h : g.rows schema = .error e) : e.isUsage = false := by
  have hmade : (g.listed.mapM fun group => row schema group.1 group.2).mapError .data = .error e := h
  cases hrows : g.listed.mapM fun group => row schema group.1 group.2 with
  | ok rows =>
    rw [hrows] at hmade
    cases hmade
  | error cause =>
    rw [hrows] at hmade
    cases hmade
    rfl

end Grouping

namespace Aggregate

open Call

variable {σ : Type} {store : PageStore} [Grouping.Listing]

/-- All of an open aggregate is open, and its groups have rows. -/
def Opened (O : σ → Prop) (a : Aggregate σ) : Prop :=
  (∃ run rows, a.run = some run ∧ run.groups.rows a.schema = .ok rows) ∧ O a.child

/-- All of a closed aggregate is closed. -/
def Shut (C : σ → Prop) (a : Aggregate σ) : Prop := a.run = none ∧ C a.child

/-- Handing out groups from the first one on opens the aggregate, unless a group has no row. -/
theorem replay_together {O : σ → Prop} (groups : Grouping) {a : Aggregate σ} (ha : O a.child) :
    Triple store (· = a) (replay groups) (fun _ => Opened O)
      (fun e _ => groups.rows a.schema = .error e) := by
  refine Triple.getBindAt ?_
  refine Triple.bind (R := fun rows a => groups.rows a.schema = .ok rows ∧ O a.child)
    (Triple.ofExcept ?_ ?_) fun rows => Triple.modify fun a ha => ⟨⟨_, rows, rfl, ha.1⟩, ha.2⟩
  · rintro _ rows rfl hrows
    exact ⟨hrows, ha⟩
  · rintro _ e - he
    exact he

variable [Cursor σ] {O C : σ → Prop}

/-- An aggregate opens and closes as a whole if its child does. -/
theorem together (h : Cursor.Together store O C) : Cursor.Together store (Opened O) (Shut C) where
  start := by
    refine Triple.getBind ?_
    rintro a ⟨hrun, hc⟩
    rw [if_neg (by simp [hrun])]
    refine Triple.bind (R := fun _ a => O a.child) (Triple.zoom ?_) fun _ => Triple.onError ?_
    · rintro _ rfl
      exact h.start.imp (fun _ hs => hs ▸ hc) (fun _ _ hs => hs) (fun _ _ he => ⟨he.1, hrun, he.2⟩)
    refine Triple.bind (R := fun _ a => O a.child) (Triple.getBind fun a ha => Triple.zoom ?_)
      fun groups => Triple.each fun a ha => (replay_together groups ha).imp (fun _ => id)
        (fun _ _ => id) fun e a he => ⟨Grouping.isUsage_of_rows he, rfl, h.close _⟩
    rintro a rfl
    -- reading the child leaves it open, or fails for no wrong call
    have hread : Triple store O (Cursor.fold Grouping.merge a.blank) (fun _ => O)
        (fun e _ => e.isUsage = false ∧ True) :=
      h.keeps.fold (fun _ _ _ he => Grouping.isUsage_of_merge he) a.blank
    exact hread.imp (fun _ hs => hs ▸ ha) (fun _ _ hs => hs) (fun _ _ he => ⟨he.1, rfl, h.close _⟩)
  hasNext := by
    refine Triple.getBind fun a ha => Triple.ofExcept (fun _ _ ht _ => ht ▸ ha) fun t e ht he => ?_
    obtain ⟨⟨run, rows, hrun, -⟩, -⟩ := ha
    have hpending : a.pending = some run.pending := congrArg (Option.map Run.pending) hrun
    rw [hpending] at he
    cases he
  next := by
    refine Triple.getBind ?_
    rintro a ⟨⟨⟨groups, pending⟩, rows, hrun, hrows⟩, hc⟩
    rw [hrun]
    cases pending with
    -- all rows are taken, and all stays open
    | nil =>
      refine Triple.fail ?_
      rintro _ rfl
      exact ⟨rfl, ⟨_, rows, hrun, hrows⟩, hc⟩
    | cons row pending =>
      refine Triple.bind (R := fun _ => Opened O) (Triple.modify ?_) fun _ => Triple.pure fun _ => id
      rintro _ rfl
      exact ⟨⟨_, rows, rfl, hrows⟩, hc⟩
  rewind := by
    refine Triple.getBind ?_
    rintro a ⟨⟨run, rows, hrun, hrows⟩, hc⟩
    rw [hrun]
    -- the groups had rows when the aggregate was opened
    refine (replay_together run.groups hc).imp (fun _ => id) (fun _ _ => id) fun e _ he => ?_
    rw [hrows] at he
    cases he
  close := fun _ => ⟨rfl, h.close _⟩

end Aggregate

end RowStream
