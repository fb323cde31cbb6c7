import RowStream.Proofs.Join.Keeps

/-!
# `RowStream.Proofs.Join.Frame` — finding the rows, whatever the account holds

Others may take bytes from the account of a join and give them back at any time, so little can be
said of the account when the rows are found. Finding them never changes the condition, the columns
and the size of a block, and reads the two sides, even if a block is refused on the way.

## Contents
- `Join.Frame`, `Join.Around` — what stays of a join, and something of its sides.
- `onChildren_around`, `makeBlock_around` — work on the sides, and asking for a block.
- `compute_around` — finding the rows.
-/

namespace RowStream.Join

open Call

variable {σ τ α : Type} {store : PageStore}

/-- What is fixed when a join is made. -/
structure Frame where
  /-- The condition. -/
  predicate : Predicate
  /-- The columns. -/
  schema : Schema
  /-- The size of a block. -/
  bufferBytes : Nat

/-- What is fixed of a join. -/
def frame (j : Join σ τ) : Frame := ⟨j.predicate, j.schema, j.bufferBytes⟩

/-- A join with the frame `f` and with sides for which `P` holds. -/
def Around (f : Frame) (P : σ × τ → Prop) (j : Join σ τ) : Prop :=
  j.frame = f ∧ P (j.left, j.right)

section Parts

variable {f : Frame} {P : σ × τ → Prop} {Q : α → σ × τ → Prop} {E : StreamError → σ × τ → Prop}

theorem onChildren_around {c : Call (σ × τ) α} (h : Triple store P c Q E) :
    Triple store (Around f P) (onChildren c) (fun a => Around f (Q a)) (fun e => Around f (E e)) := by
  refine Triple.zoom ?_
  rintro j ⟨hframe, hsides⟩
  exact h.imp (fun _ hs => hs ▸ hsides) (fun _ _ hq => ⟨hframe, hq⟩) (fun _ _ he => ⟨hframe, he⟩)

/-- A block that is refused leaves the sides alone, and so does one that is made. -/
theorem makeBlock_around (rowBytes : Nat) (tag : String) :
    Triple store (Around f P : Join σ τ → Prop) (makeBlock rowBytes tag) (fun _ => Around f P)
      (fun e => Around f fun s => e.isUsage = false ∧ P s) := by
  refine makeBlock_triple ?_ ?_
  · intro j block budget hj _
    exact hj
  · -- the account refuses a block, and that is no wrong call
    intro j cause hj _
    exact ⟨hj.1, StreamError.isUsage_ofMemory cause, hj.2⟩

end Parts

variable [Cursor σ] [Cursor τ] {F : StreamError → Prop} {I K : σ → Prop} {J M : τ → Prop}

/-- Finding the rows keeps the frame and what reading the sides keeps; a failure may leave anything
behind. -/
theorem compute_around [Sorting] (hl : Cursor.Keeps store F I K) (hr : Cursor.Keeps store F J M)
    (hF : ∀ e : StreamError, e.isUsage = false → F e) (f : Frame) :
    Triple store (Around f (Kept I J) : Join σ τ → Prop) compute (fun _ => Around f (Kept I J))
      (fun e _ => F e) := by
  have hown : ∀ e : StreamError, e.isUsage = false → e.isTyping = false → F e := fun e he _ => hF e he
  -- nothing is asked of the rows that are found
  have hfound : ∀ {α : Type} {c : Call (σ × τ) α} {R : α → Prop},
      Triple store (Kept I J) c (fun a s => R a ∧ Kept I J s) (Failed F K M) →
      Triple store (Around f (Kept I J) : Join σ τ → Prop) (onChildren c)
        (fun _ => Around f (Kept I J)) (fun e _ => F e) := fun h =>
    (onChildren_around h).imp (fun _ => id) (fun _ _ hj => ⟨hj.1, hj.2.2⟩) (fun _ _ he => he.2.1)
  have hmade : ∀ (rowBytes : Nat) (tag : String), Triple store
      (Around f (Kept I J) : Join σ τ → Prop) (makeBlock rowBytes tag) (fun _ => Around f (Kept I J))
      (fun e _ => F e) := fun rowBytes tag => (makeBlock_around rowBytes tag).imp (fun _ => id)
    (fun _ _ => id) (fun e _ he => hF e he.2.1)
  refine Triple.getBind fun j hj => Triple.atState (P := Around f (Kept I J)) ?_ hj
  cases j.strategy with
  | nestedLoop =>
    exact hfound (nestedLoop_yields hl.yields hr.yields)
  | sortMerge =>
    exact hfound (sortMerge_yields hl.yields hr.yields fun _ _ _ _ _ _ => hF _ rfl)
  | hash =>
    exact hfound (hash_yields hl.yields hr.yields hown)
  | blockNestedLoop =>
    refine Triple.getBind fun j hj => Triple.atState (P := Around f (Kept I J)) ?_ hj
    -- giving a block back touches neither side
    refine Triple.bind (hmade _ _) fun leftBlock => Triple.ensuring ?_
    refine Triple.bind (hmade _ _) fun rightBlock => Triple.ensuring ?_
    refine Triple.bind (R := fun _ => Around f (Kept I J)) ?_ fun found =>
      Triple.bind (R := fun _ => Around f (Kept I J)) (Triple.modify fun _ hj => hj) fun _ =>
        Triple.pure fun _ => id
    exact hfound (R := fun found => Found _ _ _ found.1) (blockNestedLoop_yields hl.yields hr.yields
      hown _ _ (fun _ _ => trivial) fun _ _ => trivial)

end RowStream.Join
