import RowStream.Join.Basic
import RowStream.Proofs.Memory.Reserved
import RowStream.Proofs.Stream.Triple

/-!
# `RowStream.Proofs.Join.Settings` — what finding the rows leaves alone

Finding the rows of a join changes its two sides, its marks and, for a while, what is taken of its
budget; the settings and the account are the same before and after. So what holds of a strategy can
be said of the two sides alone.

## Contents
- `Join.bare`, `Join.WellSet` — the settings of a join, and those that fit its sides.
- `Join.charged` — the settings when some of the budget is taken.
- `Join.Inside` — a join with given settings, and something of its sides.
- `onChildren_triple`, `withBlock_triple` — work on the sides, and work that needs a block.
-/

namespace RowStream.Join

open Call

variable {σ τ α : Type} {store : PageStore}

/-- The settings of a join: all of it but its sides, what it is in the midst of, and its marks. -/
def bare (j : Join σ τ) : Join Unit Unit :=
  { j with left := (), right := (), budget := j.budget.unmarked, pending := none, stats := none }

/-- The settings of a join fit the columns of its sides. -/
structure WellSet (b : Join Unit Unit) (ls rs : Schema) : Prop where
  /-- The account is sound. -/
  sound : b.budget.Sound
  /-- The account has room for two blocks. -/
  capacity_eq : b.budget.capacity = Word.saturatingMul b.bufferBytes 2
  /-- A block is not empty. -/
  buffer_pos : 0 < b.bufferBytes
  /-- A block is not huge. -/
  buffer_le : b.bufferBytes ≤ maxJoinBufferBytes
  /-- The columns of the condition exist. -/
  fields : checkFields b.predicate ls rs = .ok ()
  /-- The columns are those of both sides. -/
  schema_eq : b.schema = ls.append rs

/-- The settings when some of the budget is taken. -/
def charged (b : Join Unit Unit) (budget : Budget) : Join Unit Unit :=
  { b with budget := budget.unmarked }

/-- A join with the settings `b` and with sides for which `P` holds. -/
def Inside (b : Join Unit Unit) (P : σ × τ → Prop) (j : Join σ τ) : Prop :=
  j.bare = b ∧ P (j.left, j.right)

variable {b : Join Unit Unit} {P : σ × τ → Prop} {Q : α → σ × τ → Prop}
  {E : StreamError → σ × τ → Prop}

/-- A call on both sides. -/
theorem onChildren_triple {c : Call (σ × τ) α} (h : Triple store P c Q E) :
    Triple store (Inside b P) (onChildren c) (fun a => Inside b (Q a)) (fun e => Inside b (E e)) := by
  refine Triple.zoom ?_
  rintro j ⟨hbare, hsides⟩
  exact h.imp (fun _ hs => hs ▸ hsides) (fun _ _ hq => ⟨hbare, hq⟩) (fun _ _ he => ⟨hbare, he⟩)

/-- A block that is made comes with the account after that, and one that is refused leaves the join as it
was. -/
theorem makeBlock_triple {P : Join σ τ → Prop} {Q : Block Row → Join σ τ → Prop}
    {E : StreamError → Join σ τ → Prop} {rowBytes : Nat} {tag : String}
    (hmade : ∀ j block budget, P j →
      Block.make j.budget j.bufferBytes rowBytes tag = .ok (block, budget) →
        Q block { j with budget })
    (hrefused : ∀ (j : Join σ τ) e, P j →
      (Block.make j.budget j.bufferBytes rowBytes tag : Except MemoryError (Block Row × Budget)) =
        .error e → E (.ofMemory e) j) :
    Triple store P (makeBlock rowBytes tag) Q E := by
  intro j hj
  rw [makeBlock_apply]
  cases hmake : (Block.make j.budget j.bufferBytes rowBytes tag :
      Except MemoryError (Block Row × Budget)) with
  | ok made => exact hmade j made.1 made.2 hj hmake
  | error e => exact hrefused j e hj hmake

/-- Making a block is asking the account, whose mark plays no part in the answer. -/
theorem makeBlock_eq (store : PageStore) (rowBytes : Nat) (tag : String) (j : Join σ τ) :
    match Block.make j.bare.budget j.bare.bufferBytes rowBytes tag with
    | .ok (block, budget) =>
      (makeBlock rowBytes tag store j).result = .ok block ∧
        (makeBlock rowBytes tag store j).state.bare = j.bare.charged budget ∧
        (makeBlock rowBytes tag store j).state.left = j.left ∧
        (makeBlock rowBytes tag store j).state.right = j.right
    | .error e =>
      (makeBlock rowBytes tag store j).result = .error (.ofMemory e) ∧
        (makeBlock rowBytes tag store j).state = j := by
  have hmade := Block.make_unmarked (α := Row) j.budget j.bufferBytes rowBytes tag
  rw [makeBlock_apply]
  unfold bare charged
  -- the mark of the account decides nothing, so both answers are of one kind
  revert hmade
  cases (Block.make j.budget.unmarked j.bufferBytes rowBytes tag :
      Except MemoryError (Block Row × Budget)) <;>
    cases (Block.make j.budget j.bufferBytes rowBytes tag :
      Except MemoryError (Block Row × Budget)) <;> intro hmade
  case error.error =>
    cases hmade
    exact ⟨rfl, rfl⟩
  case error.ok => cases hmade
  case ok.error => cases hmade
  case ok.ok made' made =>
    obtain ⟨block', budget'⟩ := made'
    obtain ⟨block, budget⟩ := made
    simp only [Except.map, Except.ok.injEq, Prod.mk.injEq] at hmade
    obtain ⟨rfl, hbudget⟩ := hmade
    refine ⟨rfl, ?_, rfl, rfl⟩
    simp only [hbudget]

/-- What a block held goes back to the account it was taken from. -/
theorem releaseBlock_bare (hb : b.budget.Sound) (hbare : b.budget.unmarked = b.budget)
    {rowBytes : Nat} {tag : String} {block : Block Row} {budget : Budget}
    (h : Block.make b.budget b.bufferBytes rowBytes tag = .ok (block, budget)) {j : Join σ τ}
    (hj : j.bare = b.charged budget) : (releaseBlock block j).bare = b := by
  have hbudget : (block.release j.budget).unmarked = b.budget := by
    calc (block.release j.budget).unmarked
        = block.release j.bare.budget := (Budget.release_unmarked _ _).symm
      _ = block.release budget.unmarked := by rw [hj]; rfl
      _ = (block.release budget).unmarked := Budget.release_unmarked _ _
      _ = b.budget.unmarked := Block.unmarked_release hb h
      _ = b.budget := hbare
  calc (releaseBlock block j).bare
      = { j.bare with budget := (block.release j.budget).unmarked } := rfl
    _ = b := by rw [hj, hbudget]; rfl

/-- A block is held while the work goes on that needs it, and then given back; if it is refused, the
join is left alone. -/
theorem withBlock_triple (hb : b.budget.Sound) {rowBytes : Nat} {tag : String}
    {work : Block Row → Call (Join σ τ) α}
    (hrefused : ∀ e s, (Block.make b.budget b.bufferBytes rowBytes tag :
      Except MemoryError (Block Row × Budget)) = .error e → P s → E (.ofMemory e) s)
    (hwork : ∀ block budget,
      Block.make b.budget b.bufferBytes rowBytes tag = .ok (block, budget) →
      (b.charged budget).budget.Sound → Triple store (Inside (b.charged budget) P) (work block)
        (fun a => Inside (b.charged budget) (Q a)) (fun e => Inside (b.charged budget) (E e))) :
    Triple store (Inside b P)
      (makeBlock rowBytes tag >>= fun block => Call.ensuring (releaseBlock block) (work block))
      (fun a => Inside b (Q a)) (fun e => Inside b (E e)) := by
  refine Triple.each ?_
  rintro j ⟨rfl, hsides⟩
  have hmade := makeBlock_eq store rowBytes tag j
  refine Triple.bindAt (fun block hblock => Triple.ensuring ?_) (fun e he => ?_)
  -- the account grants the block
  · cases h : (Block.make j.bare.budget j.bare.bufferBytes rowBytes tag :
        Except MemoryError (Block Row × Budget)) with
    | error e =>
      rw [h] at hmade
      rw [hmade.1] at hblock
      cases hblock
    | ok made =>
      rw [h] at hmade
      obtain ⟨hres, hbare, hleft, hright⟩ := hmade
      rw [hres] at hblock
      cases hblock
      rw [← hleft, ← hright] at hsides
      have hsound := Budget.sound_unmarked_iff.2 (Block.sound_of_make hb h)
      refine (hwork made.1 made.2 h hsound).imp (fun _ hj => hj ▸ ⟨hbare, hsides⟩) ?_ ?_
      · rintro a j' ⟨hj', hq⟩
        exact ⟨releaseBlock_bare hb rfl h hj', hq⟩
      · rintro e j' ⟨hj', he⟩
        exact ⟨releaseBlock_bare hb rfl h hj', he⟩
  · cases h : (Block.make j.bare.budget j.bare.bufferBytes rowBytes tag :
        Except MemoryError (Block Row × Budget)) with
    | error e' =>
      rw [h] at hmade
      rw [hmade.1] at he
      cases he
      rw [hmade.2]
      exact ⟨rfl, hrefused e' _ h hsides⟩
    | ok made =>
      rw [h] at hmade
      rw [hmade.1] at he
      cases he

end RowStream.Join
