import RowStream.Proofs.Memory.Ledger
import RowStream.Proofs.Tree.Built

/-!
# `RowStream.Proofs.Join.Account` — the account of a join, call by call

The account of a join is lent to others, and the join itself takes its blocks from it while it finds
its rows. A ledger tells the two apart: whatever the sides of the join are and whatever goes wrong with
them, the reservations that are live after a call are those that were live before it, and at no time is
more taken than two blocks of the full buffer.

## Contents
- `Join.Traded` — the joins that can come about, with what others hold of their accounts.
- `Join.Held` — what others hold of the account, and how much was ever taken.
- `Held.next`, `Held.reserve`, `Held.giveBack` — what others do to the account.
- `makeBlock_held`, `releaseBlock_held`, `withBlock_held` — the blocks of the join.
- `compute_held`, `perform_held` — every call.
- `held_of_make`, `held_of_traded` — every join that can come about.
-/

namespace RowStream

namespace Join

open Call

variable {σ τ α : Type} {store : PageStore} {bytes : Nat} {live : List Reservation}

/-- The joins with a buffer of that size that can come about, and what others hold of their accounts,
in the order in which they took it. Nothing is asked of the sides. -/
inductive Traded [Sorting] (bytes : Nat) : {σ τ : Type} → Join σ τ → List Reservation → Prop where
  /-- A new join, of whose account nobody holds anything. -/
  | make {σ τ : Type} [Cursor σ] [Cursor τ] {config : Config} {account : Nat} {p : Predicate}
    {left : σ} {right : τ} {j : Join σ τ} :
    config.joinBufferBytes = bytes → Join.make config account p left right = .ok j →
      Traded bytes j []
  /-- A call, which may fail, over any store. -/
  | call {σ τ : Type} [Cursor σ] [Cursor τ] {j : Join σ τ} {live : List Reservation}
    (store : PageStore) (request : Request) :
    Traded bytes j live → Traded bytes (request.perform store j).state live
  /-- Another strategy. -/
  | setStrategy {σ τ : Type} {j : Join σ τ} {live : List Reservation} (strategy : Strategy) :
    Traded bytes j live → Traded bytes (j.setStrategy strategy) live
  /-- Other children. -/
  | setChildren {σ τ σ' τ' : Type} [Cursor σ'] [Cursor τ'] {j : Join σ τ} {live : List Reservation}
    {left : σ'} {right : τ'} {j' : Join σ' τ'} :
    Traded bytes j live → j.setChildren left right = .ok j' → Traded bytes j' live
  /-- Something that is done to the sides. -/
  | touch {σ τ : Type} {j : Join σ τ} {live : List Reservation} (left : σ) (right : τ) :
    Traded bytes j live → Traded bytes { j with left, right } live
  /-- Others take bytes. -/
  | reserve {σ τ : Type} {j j' : Join σ τ} {live : List Reservation} {size : Nat} {tag : String}
    {r : Reservation} :
    Traded bytes j live → j.reserve size tag = .ok (r, j') → Traded bytes j' (live ++ [r])
  /-- Others give bytes back. -/
  | giveBack {σ τ : Type} {j : Join σ τ} {live : List Reservation} {place : Nat} {r : Reservation} :
    Traded bytes j live → live[place]? = some r →
      Traded bytes { j with budget := j.budget.release r } (live.eraseIdx place)

/-- A join with a buffer of that size, of whose account others hold the live reservations. -/
structure Held (bytes : Nat) (live : List Reservation) (j : Join σ τ) : Prop where
  /-- The account counts what is live, and nothing else. -/
  balanced : Ledger.Balanced ⟨j.budget, live⟩
  /-- The size of the buffer. -/
  buffer_eq : j.bufferBytes = bytes
  /-- The account has room for two buffers. -/
  capacity_eq : j.budget.capacity = 2 * bytes
  /-- There was never more taken. -/
  peak_le : j.budget.peak.level ≤ 2 * bytes

/-! ## Others -/

/-- A step of the ledger is one of the join. -/
theorem Held.next {live' : List Reservation} {j : Join σ τ} (hj : Held bytes live j) {b' : Budget}
    (h : Ledger.Next ⟨j.budget, live⟩ ⟨b', live'⟩) :
    Held bytes live' ({ j with budget := b' } : Join σ τ) := by
  have hcapacity : b'.capacity = 2 * bytes := h.capacity_eq.trans hj.capacity_eq
  have htaken : Ledger.taken ⟨b', live'⟩ ≤ 2 * bytes := by
    rw [← h.balanced.used_eq, ← hcapacity]
    exact h.balanced.sound.used_le
  have hpeak : b'.peak.level = max j.budget.peak.level (Ledger.taken ⟨b', live'⟩) := h.peak_eq
  refine ⟨h.balanced, hj.buffer_eq, hcapacity, ?_⟩
  show b'.peak.level ≤ _
  rw [hpeak]
  exact Nat.max_le.2 ⟨hj.peak_le, htaken⟩

/-- What is reserved from outside is live. -/
theorem Held.reserve {j j' : Join σ τ} (hj : Held bytes live j) {size : Nat} {tag : String}
    {r : Reservation} (h : j.reserve size tag = .ok (r, j')) : Held bytes (live ++ [r]) j' := by
  unfold Join.reserve at h
  cases hgranted : j.budget.reserve size tag with
  | error e => simp [hgranted, bind, Except.bind] at h
  | ok granted =>
    simp only [hgranted, bind, Except.bind, pure, Except.pure, Except.ok.injEq, Prod.mk.injEq] at h
    obtain ⟨rfl, rfl⟩ := h
    exact hj.next (Ledger.next_of_reserve hj.balanced hgranted)

/-- What is given back is live no longer. -/
theorem Held.giveBack {j : Join σ τ} (hj : Held bytes live j) {place : Nat} {r : Reservation}
    (h : live[place]? = some r) :
    Held bytes (live.eraseIdx place) ({ j with budget := j.budget.release r } : Join σ τ) :=
  hj.next (Ledger.next_of_giveBack hj.balanced h)

/-- Whoever does not touch the account and the size of the buffer changes nothing of this. -/
theorem Held.congr {σ' τ' : Type} {j : Join σ τ} {j' : Join σ' τ'} (hj : Held bytes live j)
    (hbudget : j'.budget = j.budget) (hbuffer : j'.bufferBytes = j.bufferBytes) :
    Held bytes live j' := by
  refine ⟨?_, hbuffer.trans hj.buffer_eq, ?_, ?_⟩
  · rw [hbudget]
    exact hj.balanced
  · rw [hbudget]
    exact hj.capacity_eq
  · rw [hbudget]
    exact hj.peak_le

/-! ## The blocks of the join -/

/-- A call keeps what others hold. -/
def HoldsStill (store : PageStore) (bytes : Nat) (live : List Reservation)
    (c : Call (Join σ τ) α) : Prop :=
  Triple store (Held bytes live) c (fun _ => Held bytes live) (fun _ => Held bytes live)

/-- Work on a side, or on both, is nothing to the account. -/
theorem zoom_held {υ : Type} {part : Join σ τ → υ} {putPart : υ → Join σ τ → Join σ τ}
    (hbudget : ∀ u j, (putPart u j).budget = j.budget)
    (hbuffer : ∀ u j, (putPart u j).bufferBytes = j.bufferBytes) (c : Call υ α) :
    HoldsStill store bytes live (Call.zoom part putPart c) := by
  apply Triple.zoom
  intro j hj
  apply Triple.intro
  · intro s a _ _
    exact hj.congr (hbudget _ j) (hbuffer _ j)
  · intro s e _ _
    exact hj.congr (hbudget _ j) (hbuffer _ j)

theorem onLeft_held (c : Call σ α) : HoldsStill store bytes live (onLeft c : Call (Join σ τ) α) :=
  zoom_held (by intro _ _; rfl) (by intro _ _; rfl) c

theorem onRight_held (c : Call τ α) : HoldsStill store bytes live (onRight c : Call (Join σ τ) α) :=
  zoom_held (by intro _ _; rfl) (by intro _ _; rfl) c

theorem onChildren_held (c : Call (σ × τ) α) :
    HoldsStill store bytes live (onChildren c : Call (Join σ τ) α) :=
  zoom_held (by intro _ _; rfl) (by intro _ _; rfl) c

/-- A block that is made is live; one that is refused is not. -/
theorem makeBlock_held (rowBytes : Nat) (tag : String) :
    Triple store (Held bytes live : Join σ τ → Prop) (makeBlock rowBytes tag)
      (fun block => Held bytes (live ++ [block.reservation])) (fun _ => Held bytes live) := by
  refine makeBlock_triple ?_ ?_
  · intro j block budget hj hmade
    obtain ⟨-, r, hgranted, rfl⟩ := Block.make_eq_ok_iff.1 hmade
    exact hj.next (Ledger.next_of_reserve hj.balanced hgranted)
  · intro j e hj _
    exact hj

/-- A block that is given back is live no longer. -/
theorem releaseBlock_held {block : Block Row} {j : Join σ τ}
    (hj : Held bytes (live ++ [block.reservation]) j) : Held bytes live (releaseBlock block j) := by
  have hlast : (live ++ [block.reservation])[live.length]? = some block.reservation := by simp
  have hback := hj.giveBack hlast
  rw [show (live ++ [block.reservation]).eraseIdx live.length = live by
    simp [List.eraseIdx_append_of_length_le]] at hback
  exact hback

/-- A block is given back after the work that needs it, whatever comes of the work. -/
theorem withBlock_held {rowBytes : Nat} {tag : String} {work : Block Row → Call (Join σ τ) α}
    (hwork : ∀ block, HoldsStill store bytes (live ++ [block.reservation]) (work block)) :
    HoldsStill store bytes live
      (makeBlock rowBytes tag >>= fun block => Call.ensuring (releaseBlock block) (work block)) := by
  refine Triple.bind (makeBlock_held rowBytes tag) fun block => Triple.ensuring ?_
  exact (hwork block).imp (fun _ => id) (fun _ _ => releaseBlock_held) (fun _ _ => releaseBlock_held)

/-! ## The calls -/

section Calls

variable [Cursor σ] [Cursor τ]

theorem computeByBlocks_held :
    HoldsStill store bytes live (computeByBlocks : Call (Join σ τ) (List Row)) := by
  apply Triple.getBind
  intro j hj
  refine Triple.atState (P := Held bytes live) ?_ hj
  apply withBlock_held
  intro leftBlock
  apply withBlock_held
  intro rightBlock
  refine Triple.bind (onChildren_held _) fun found => ?_
  refine Triple.bind (R := fun _ => Held bytes _) (Triple.modify ?_) fun _ => Triple.pure fun _ => id
  intro j hj
  exact hj.congr rfl rfl

/-- Finding the rows holds no more of the account afterwards than before, also if it fails. -/
theorem compute_held [Sorting] :
    HoldsStill store bytes live (compute : Call (Join σ τ) (List Row)) := by
  apply Triple.getBind
  intro j hj
  refine Triple.atState (P := Held bytes live) ?_ hj
  cases j.strategy with
  | nestedLoop => exact onChildren_held _
  | blockNestedLoop => exact computeByBlocks_held
  | sortMerge => exact onChildren_held _
  | hash => exact onChildren_held _

theorem materialize_held [Sorting] :
    HoldsStill store bytes live (materialize : Call (Join σ τ) Unit) := by
  refine Triple.bind (R := fun _ => Held bytes live) (Triple.onError ?_) fun rows => ?_
  · exact compute_held.imp (fun _ => id) (fun _ _ => id) fun _ _ hj => hj.congr rfl rfl
  · apply Triple.modify
    intro j hj
    exact hj.congr rfl rfl

theorem start_held [Sorting] : HoldsStill store bytes live (start : Call (Join σ τ) Unit) := by
  apply Triple.getBind
  intro j hj
  by_cases hopen : j.pending.isSome
  · rw [if_pos hopen]
    exact Triple.fail fun _ ht => ht ▸ hj
  rw [if_neg hopen]
  refine Triple.atState (P := Held bytes live) ?_ hj
  refine Triple.bind (onLeft_held _) fun _ => ?_
  refine Triple.bind (R := fun _ => Held bytes live) (Triple.onError ?_) fun _ => materialize_held
  exact (onRight_held _).imp (fun _ => id) (fun _ _ => id)
    fun _ _ hj => hj.congr rfl rfl

theorem rewind_held [Sorting] : HoldsStill store bytes live (rewind : Call (Join σ τ) Unit) := by
  apply Triple.getBind
  intro j hj
  by_cases hopen : j.pending.isNone
  · rw [if_pos hopen]
    exact Triple.fail fun _ ht => ht ▸ hj
  rw [if_neg hopen]
  refine Triple.atState (P := Held bytes live) ?_ hj
  refine Triple.bind (R := fun _ => Held bytes live) (Triple.onError ?_) fun _ => ?_
  · refine Triple.imp (E := fun _ => Held bytes live) ?_ (fun _ => id) (fun _ _ => id)
      fun _ _ hj => hj.congr rfl rfl
    exact Triple.bind (onLeft_held _) fun _ => onRight_held _
  · refine Triple.bind (R := fun _ => Held bytes live) (Triple.modify ?_) fun _ => materialize_held
    intro j hj
    exact hj.congr rfl rfl

omit [Cursor σ] [Cursor τ] in
theorem next_held : HoldsStill store bytes live (next : Call (Join σ τ) Row) := by
  apply Triple.getBind
  intro j hj
  refine Triple.bind (R := fun _ => Held bytes live)
    (Triple.ofExcept (fun _ _ ht _ => ht ▸ hj) (fun _ _ ht _ => ht ▸ hj)) fun taken => ?_
  refine Triple.bind (R := fun _ => Held bytes live) (Triple.modify ?_) fun _ =>
    Triple.pure fun _ => id
  intro j hj
  exact hj.congr rfl rfl

/-- Whatever is asked of a join, and whatever comes of it, others hold what they held. -/
theorem perform_held [Sorting] (store : PageStore) (request : Request) {j : Join σ τ}
    (hj : Held bytes live j) :
    Held bytes live (request.perform store j).state := by
  refine request.perform_leads (P := Held bytes live) (Q := Held bytes live) ?_ ?_ ?_ ?_ ?_ hj
  · exact start_held
  · exact Triple.still (state_hasNext store)
  · exact next_held
  · exact rewind_held
  · intro j hj
    exact hj.congr rfl rfl

/-- Nobody holds anything of a new join. -/
theorem held_of_make {config : Config} {account : Nat} {p : Predicate} {left : σ} {right : τ}
    {j : Join σ τ} (h : Join.make config account p left right = .ok j) :
    Held config.joinBufferBytes [] j := by
  obtain ⟨hvalid, -, rfl⟩ := of_make h
  obtain ⟨-, hle, -⟩ := (Config.validate_eq_ok_iff config).1 hvalid
  obtain ⟨hcapacity, htop⟩ := capacity_lt_top hle
  refine ⟨?_, rfl, hcapacity, Nat.zero_le _⟩
  apply Ledger.balanced_opened
  rw [hcapacity]
  exact htop

end Calls

/-- The account of every join that can come about has on it what others hold, and never had more on it
than two full buffers. -/
theorem held_of_traded [Sorting] {j : Join σ τ} (h : Traded bytes j live) : Held bytes live j := by
  induction h with
  | make hbytes hj => exact hbytes ▸ held_of_make hj
  | call store request _ ih => exact perform_held store request ih
  | setStrategy strategy _ ih => exact ih.congr rfl rfl
  | setChildren _ hset ih =>
    obtain ⟨-, -, rfl⟩ := eq_of_setChildren hset
    exact ih.congr rfl rfl
  | touch left right _ ih => exact ih.congr rfl rfl
  | reserve _ hr ih => exact ih.reserve hr
  | giveBack _ hr ih => exact ih.giveBack hr

end Join

end RowStream
