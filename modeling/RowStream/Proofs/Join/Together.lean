import RowStream.Proofs.Join.Frame
import RowStream.Proofs.Stream.Together

/-!
# `RowStream.Proofs.Join.Together` — a join opens and closes with its sides

Whatever fails while a join is opened or sent back, be it on the way to the rows or because there is
no memory for a block, the join closes both sides and keeps no rows.

## Contents
- `Join.Sides` — something of the sides of a join, whatever its settings and its account are.
- `compute_sides` — finding the rows leaves both sides open, unless it fails.
- `Join.together` — the join opens and closes as a whole if its sides do.
-/

namespace RowStream.Join

open Call

variable {σ τ : Type} {store : PageStore}

/-- A join with sides for which `P` holds. -/
def Sides (P : σ × τ → Prop) (j : Join σ τ) : Prop := P (j.left, j.right)

variable [Cursor σ] [Cursor τ] {O C : σ → Prop} {O' C' : τ → Prop}

/-- While the rows are found, both sides stay open; a failure may leave anything behind. -/
theorem compute_sides [Sorting] (hl : Cursor.Together store O C) (hr : Cursor.Together store O' C') :
    Triple store (Sides (Kept O O') : Join σ τ → Prop) compute (fun _ => Sides (Kept O O'))
      (fun e _ => e.isUsage = false) := by
  refine Triple.each fun j hj => ?_
  refine (compute_around hl.keeps hr.keeps (fun _ => id) j.frame).imp ?_ (fun _ _ hj => hj.2)
    (fun _ _ => id)
  rintro _ rfl
  exact ⟨rfl, hj⟩

/-- All of an open join is open. -/
def Opened (O : σ → Prop) (O' : τ → Prop) (j : Join σ τ) : Prop :=
  j.pending.isSome ∧ O j.left ∧ O' j.right

/-- All of a closed join is closed. -/
def Shut (C : σ → Prop) (C' : τ → Prop) (j : Join σ τ) : Prop :=
  j.pending = none ∧ C j.left ∧ C' j.right

/-- Once both sides are open, the join is, or all is closed. -/
theorem materialize_together [Sorting] (hl : Cursor.Together store O C)
    (hr : Cursor.Together store O' C') :
    Triple store (Sides (Kept O O')) materialize (fun _ => Opened O O')
      (fun e j => e.isUsage = false ∧ Shut C C' j) := by
  refine Triple.bind (Triple.onError ((compute_sides hl hr).imp (fun _ => id) (fun _ _ => id) ?_))
    fun rows => Triple.modify fun _ hj => ⟨rfl, hj.1, hj.2⟩
  intro e j he
  exact ⟨he, rfl, hl.close _, hr.close _⟩

/-- A join opens and closes as a whole if its sides do. -/
theorem together [Sorting] (hl : Cursor.Together store O C) (hr : Cursor.Together store O' C') :
    Cursor.Together store (Opened O O') (Shut C C') where
  start := by
    refine Triple.getBind ?_
    rintro j ⟨hpending, hc, hc'⟩
    rw [if_neg (by simp [hpending])]
    refine Triple.bind (R := fun _ j => j.pending = none ∧ O j.left ∧ C' j.right) (Triple.zoom ?_)
      fun _ => Triple.bind (R := fun _ => Sides (Kept O O')) (Triple.onError (Triple.zoom ?_)) fun _ =>
        materialize_together hl hr
    · rintro _ rfl
      exact hl.start.imp (fun _ hs => hs ▸ hc) (fun _ _ hs => ⟨hpending, hs, hc'⟩)
        (fun _ _ he => ⟨he.1, hpending, he.2, hc'⟩)
    · -- if the right side does not open, the left one is closed again
      rintro j ⟨hpending, ho, hc'⟩
      exact hr.start.imp (fun _ hs => hs ▸ hc') (fun _ _ hs => ⟨ho, hs⟩)
        (fun _ _ he => ⟨he.1, hpending, hl.close _, he.2⟩)
  hasNext := by
    refine Triple.getBind fun j hj => Triple.ofExcept (fun _ _ ht _ => ht ▸ hj) fun t e ht he => ?_
    obtain ⟨rows, hrows⟩ := Option.isSome_iff_exists.1 hj.1
    rw [hrows] at he
    cases he
  next := by
    refine Triple.getBind fun j hj => ?_
    have hnext := Replay.next_of_isSome .join hj.1
    refine Triple.bind (R := fun taken j => taken.2.isSome ∧ O j.left ∧ O' j.right)
      (Triple.ofExcept ?_ ?_) fun taken => Triple.bind (R := fun _ => Opened O O')
        (Triple.modify fun _ h => ⟨h.1, h.2⟩) fun _ => Triple.pure fun _ => id
    · rintro t a rfl ha
      rw [ha] at hnext
      exact ⟨hnext, hj.2⟩
    · rintro t e rfl he
      rw [he] at hnext
      exact ⟨hnext, hj⟩
  rewind := by
    refine Triple.getBind ?_
    rintro j ⟨hpending, ho, ho'⟩
    rw [if_neg (by simpa using Option.isSome_iff_ne_none.1 hpending)]
    -- if a side cannot be sent back, both are closed
    refine Triple.bind (R := fun _ => Sides (Kept O O')) (Triple.onError ?_) fun _ =>
      Triple.bind (R := fun _ => Sides (Kept O O')) (Triple.modify fun _ hj => hj) fun _ =>
        materialize_together hl hr
    refine Triple.bind (R := fun _ => Sides (Kept O O')) (Triple.zoom ?_) fun _ => Triple.zoom ?_
    · rintro _ rfl
      exact hl.rewind.imp (fun _ hs => hs ▸ ho) (fun _ _ hs => ⟨hs, ho'⟩)
        (fun _ _ he => ⟨he.1, rfl, hl.close _, hr.close _⟩)
    · rintro j ⟨ho, ho'⟩
      exact hr.rewind.imp (fun _ hs => hs ▸ ho') (fun _ _ hs => ⟨ho, hs⟩)
        (fun _ _ he => ⟨he.1, rfl, hl.close _, hr.close _⟩)
  close := fun _ => ⟨rfl, hl.close _, hr.close _⟩

end RowStream.Join
