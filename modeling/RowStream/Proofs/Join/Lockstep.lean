import RowStream.Proofs.Join.Settings
import RowStream.Proofs.Stream.Lockstep

/-!
# `RowStream.Proofs.Join.Lockstep` — joins that differ in their marks only

The marks of a join are what its account held at most and what its last blocks did. Nothing that a join
answers depends on them, so two joins with the same settings, sides and rows to come stay alike whatever
they are asked.

## Contents
- `Join.Like` — two joins that differ in their marks only.
- `makeBlock_lockstep`, `compute_lockstep` — asking for a block, and finding the rows.
- `start_lockstep`, `hasNext_lockstep`, `next_lockstep`, `rewind_lockstep` — the calls.
-/

namespace RowStream.Join

open Call

variable {σ τ α : Type} {store : PageStore}

/-- The two joins differ in their marks only. -/
structure Like (j j' : Join σ τ) : Prop where
  /-- Their settings and what is taken of their accounts. -/
  bare_eq : j.bare = j'.bare
  /-- Their left sides. -/
  left_eq : j.left = j'.left
  /-- Their right sides. -/
  right_eq : j.right = j'.right
  /-- The rows that are still to come. -/
  pending_eq : j.pending = j'.pending

namespace Like

variable {j j' : Join σ τ}

theorem schema_eq (h : j.Like j') : j.schema = j'.schema :=
  congrArg (fun b : Join Unit Unit => b.schema) h.bare_eq

theorem predicate_eq (h : j.Like j') : j.predicate = j'.predicate :=
  congrArg (fun b : Join Unit Unit => b.predicate) h.bare_eq

theorem strategy_eq (h : j.Like j') : j.strategy = j'.strategy :=
  congrArg (fun b : Join Unit Unit => b.strategy) h.bare_eq

theorem unmarked_eq (h : j.Like j') : j.budget.unmarked = j'.budget.unmarked :=
  congrArg (fun b : Join Unit Unit => b.budget) h.bare_eq

/-- The same change of the sides and of the rows to come. -/
theorem put (h : j.Like j') (left : σ) (right : τ) (pending : Replay) :
    Like { j with left, right, pending } { j' with left, right, pending } :=
  ⟨h.bare_eq, rfl, rfl, rfl⟩

/-- What is noted of the blocks plays no part. -/
theorem note (h : j.Like j') (stats : Option BlockStats) :
    Like { j with stats } { j' with stats } :=
  ⟨h.bare_eq, h.left_eq, h.right_eq, h.pending_eq⟩

/-- Accounts that differ in their marks only. -/
theorem charge (h : j.Like j') {budget budget' : Budget} (heq : budget.unmarked = budget'.unmarked) :
    Like { j with budget } { j' with budget := budget' } := by
  refine ⟨?_, h.left_eq, h.right_eq, h.pending_eq⟩
  show { j.bare with budget := budget.unmarked } = { j'.bare with budget := budget'.unmarked }
  rw [h.bare_eq, heq]

theorem release (h : j.Like j') (block : Block Row) :
    Like (releaseBlock block j) (releaseBlock block j') := by
  apply h.charge
  show (j.budget.release _).unmarked = (j'.budget.release _).unmarked
  rw [← Budget.release_unmarked, ← Budget.release_unmarked, h.unmarked_eq]

end Like

/-! ## Finding the rows -/

theorem onLeft_lockstep (c : Call σ α) :
    Lockstep store Like (onLeft c : Call (Join σ τ) α) (onLeft c) :=
  Lockstep.zoom c (fun _ _ h => h.left_eq) fun _ _ _ h => ⟨h.bare_eq, rfl, h.right_eq, h.pending_eq⟩

theorem onRight_lockstep (c : Call τ α) :
    Lockstep store Like (onRight c : Call (Join σ τ) α) (onRight c) :=
  Lockstep.zoom c (fun _ _ h => h.right_eq) fun _ _ _ h => ⟨h.bare_eq, h.left_eq, rfl, h.pending_eq⟩

theorem onChildren_lockstep (c : Call (σ × τ) α) :
    Lockstep store Like (onChildren c : Call (Join σ τ) α) (onChildren c) :=
  Lockstep.zoom c (fun _ _ h => Prod.ext h.left_eq h.right_eq)
    fun _ _ _ h => ⟨h.bare_eq, rfl, rfl, h.pending_eq⟩

/-- Whether a block is granted depends on the account and not on its mark. -/
theorem makeBlock_lockstep (rowBytes : Nat) (tag : String) :
    Lockstep store Like (makeBlock rowBytes tag : Call (Join σ τ) (Block Row))
      (makeBlock rowBytes tag) := by
  intro j j' h
  have hbuffer : j.bufferBytes = j'.bufferBytes :=
    congrArg (fun b : Join Unit Unit => b.bufferBytes) h.bare_eq
  -- both accounts answer as the account without a mark does
  have hmade := Block.make_unmarked (α := Row) j.budget j.bufferBytes rowBytes tag
  have hmade' := Block.make_unmarked (α := Row) j'.budget j'.bufferBytes rowBytes tag
  rw [h.unmarked_eq, hbuffer, hmade'] at hmade
  have hsame : (Block.make j.budget j.bufferBytes rowBytes tag :
      Except MemoryError (Block Row × Budget)) =
        Block.make j.budget j'.bufferBytes rowBytes tag := by rw [hbuffer]
  rw [makeBlock_apply, makeBlock_apply, hsame]
  revert hmade
  cases (Block.make j.budget j'.bufferBytes rowBytes tag : Except MemoryError (Block Row × Budget)) <;>
    cases (Block.make j'.budget j'.bufferBytes rowBytes tag :
      Except MemoryError (Block Row × Budget)) <;> intro hmade
  case error.error =>
    cases hmade
    exact ⟨rfl, h, rfl⟩
  case error.ok => cases hmade
  case ok.error => cases hmade
  case ok.ok made made' =>
    obtain ⟨block, budget⟩ := made
    obtain ⟨block', budget'⟩ := made'
    simp only [Except.map, Except.ok.injEq, Prod.mk.injEq] at hmade
    obtain ⟨rfl, hbudget⟩ := hmade
    exact ⟨rfl, h.charge hbudget.symm, rfl⟩

variable [Cursor σ] [Cursor τ]

theorem computeByBlocks_lockstep :
    Lockstep store Like (computeByBlocks : Call (Join σ τ) (List Row)) computeByBlocks := by
  refine Lockstep.getBind fun j j' h => ?_
  rw [h.left_eq, h.right_eq, h.predicate_eq, h.schema_eq]
  refine (makeBlock_lockstep _ _).bind fun leftBlock =>
    Lockstep.ensuring ?_ fun _ _ hj => hj.release leftBlock
  refine (makeBlock_lockstep _ _).bind fun rightBlock =>
    Lockstep.ensuring ?_ fun _ _ hj => hj.release rightBlock
  refine (onChildren_lockstep _).bind fun found => ?_
  exact (Lockstep.modify fun _ _ hj => hj.note _).bind fun _ => Lockstep.pure _

/-- Both joins find the same rows. -/
theorem compute_lockstep [Sorting] :
    Lockstep store Like (compute : Call (Join σ τ) (List Row)) compute := by
  refine Lockstep.getBind fun j j' h => ?_
  rw [h.predicate_eq, h.schema_eq, h.strategy_eq]
  cases j'.strategy with
  | nestedLoop => exact onChildren_lockstep _
  | blockNestedLoop => exact computeByBlocks_lockstep
  | sortMerge => exact onChildren_lockstep _
  | hash => exact onChildren_lockstep _

/-! ## The calls -/

theorem close_like {j j' : Join σ τ} (h : j.Like j') : Like j.close j'.close := by
  unfold close
  rw [h.left_eq, h.right_eq]
  exact h.put _ _ none

theorem materialize_lockstep [Sorting] :
    Lockstep store Like (materialize : Call (Join σ τ) Unit) materialize := by
  refine (Lockstep.onError compute_lockstep fun _ _ => close_like).bind fun rows => ?_
  exact Lockstep.modify fun _ _ h => ⟨h.bare_eq, h.left_eq, h.right_eq, rfl⟩

theorem start_lockstep [Sorting] : Lockstep store Like (start : Call (Join σ τ) Unit) start := by
  refine Lockstep.getBind fun j j' h => ?_
  rw [h.pending_eq]
  by_cases hopen : j'.pending.isSome = true
  · rw [if_pos hopen]
    exact Lockstep.fail _
  · rw [if_neg hopen]
    refine (onLeft_lockstep _).bind fun _ => ?_
    refine (Lockstep.onError (onRight_lockstep _) ?_).bind fun _ => materialize_lockstep
    intro k k' hk
    rw [hk.left_eq]
    exact ⟨hk.bare_eq, rfl, hk.right_eq, hk.pending_eq⟩

omit [Cursor σ] [Cursor τ] in
theorem hasNext_lockstep : Lockstep store Like (hasNext : Call (Join σ τ) Bool) hasNext := by
  refine Lockstep.getBind fun j j' h => ?_
  rw [h.pending_eq]
  exact Lockstep.ofExcept _

omit [Cursor σ] [Cursor τ] in
theorem next_lockstep : Lockstep store Like (next : Call (Join σ τ) Row) next := by
  refine Lockstep.getBind fun j j' h => ?_
  rw [h.pending_eq]
  refine (Lockstep.ofExcept _).bind fun taken => ?_
  refine (Lockstep.modify fun _ _ hk => ?_).bind fun _ => Lockstep.pure _
  exact ⟨hk.bare_eq, hk.left_eq, hk.right_eq, rfl⟩

theorem rewind_lockstep [Sorting] : Lockstep store Like (rewind : Call (Join σ τ) Unit) rewind := by
  refine Lockstep.getBind fun j j' h => ?_
  rw [h.pending_eq]
  by_cases hclosed : j'.pending.isNone = true
  · rw [if_pos hclosed]
    exact Lockstep.fail _
  · rw [if_neg hclosed]
    have hsides : Lockstep store Like
        (do onLeft Cursor.rewind; onRight Cursor.rewind : Call (Join σ τ) Unit)
        (do onLeft Cursor.rewind; onRight Cursor.rewind) :=
      (onLeft_lockstep Cursor.rewind).bind fun _ => onRight_lockstep Cursor.rewind
    refine (Lockstep.onError hsides fun _ _ => close_like).bind fun _ => ?_
    refine (Lockstep.modify fun _ _ hk => ?_).bind fun _ => materialize_lockstep
    exact ⟨hk.bare_eq, hk.left_eq, hk.right_eq, rfl⟩

end RowStream.Join
