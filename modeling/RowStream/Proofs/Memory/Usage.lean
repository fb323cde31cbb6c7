import Mathlib.Data.List.Induction
import RowStream.Proofs.Memory.Ledger

/-!
# `RowStream.Proofs.Memory.Usage` — a block from its making to its release

A block is made from an account that others draw on as well, rows are put into it, it is emptied and
filled again, and at the end it is given back. Meanwhile the others take and give back what they
like. Whatever the order of all this is, the account counts the bytes of the block beside those of the
others until it is given back, and the block tells the truth about the rows that it took.

## Contents
- `Ledger.makeBlock`, `Ledger.Refuses`, `makeBlock_eq_error_iff` — making a block, and why none is made.
- `Ledger.holding`, `holding_step` — the block among the holders of its account.
- `Block.Use`, `Use.Event`, `Use.run` — what happens while a block is in use.
- `Use.Kept`, `Kept.next` — what stays true of it, event by event.
- `Use.Exact`, `usage_exact` — all that the block and its account tell, at any time.
-/

namespace RowStream

namespace Ledger

variable {α : Type} {l : Ledger} {r : Reservation} {block row : Nat} {tag : String} {e : MemoryError}

/-! ## Making a block -/

/-- Makes a block from the account. The ledger goes on as that of the others. -/
def makeBlock (l : Ledger) (block row : Nat) (tag : String) :
    Except MemoryError (Block α) × Ledger :=
  let (made, budget) := (Block.build block row tag).outcome l.budget
  (made, { l with budget })

/-- A block that is refused leaves the ledger as it was. -/
theorem makeBlock_eq (l : Ledger) (block row : Nat) (tag : String) :
    (l.makeBlock block row tag : Except MemoryError (Block α) × Ledger) =
      match Block.make l.budget block row tag with
      | .ok (made, budget) => (.ok made, { l with budget })
      | .error e => (.error e, l) := by
  unfold makeBlock
  rw [Block.outcome_build]
  cases (Block.make l.budget block row tag : Except MemoryError (Block α × Budget)) <;> rfl

/-- Why no block is made. -/
inductive Refuses (l : Ledger) (block row : Nat) (tag : String) : MemoryError → Prop where
  /-- A row is wider than the block. -/
  | wide : block < max row 1 → Refuses l block row tag (.rowTooWide tag block row)
  /-- A row fits, but not the bytes of all rows what is left of the account. -/
  | full : max row 1 ≤ block →
      l.budget.capacity - l.taken < Block.rowsFor block row * max row 1 →
      Refuses l block row tag
        (.exceeded tag (Block.rowsFor block row * max row 1) l.budget.capacity l.taken)

/-- A block is made from what the account grants, or not at all. -/
theorem make_cases (l : Ledger) (block row : Nat) (tag : String) :
    (block < max row 1 ∧ (Block.make l.budget block row tag :
        Except MemoryError (Block α × Budget)) = .error (.rowTooWide tag block row)) ∨
      (max row 1 ≤ block ∧ (Block.make l.budget block row tag :
        Except MemoryError (Block α × Budget)) =
          (l.budget.reserve (Block.rowsFor block row * max row 1) tag).map fun granted =>
            ({ capacity := Block.rowsFor block row, reservation := granted.1, tag }, granted.2)) := by
  rw [Block.make_eq_ite]
  by_cases hwide : block < max row 1
  · rw [if_pos (Block.rowsFor_eq_zero_iff.2 hwide)]
    exact .inl ⟨hwide, rfl⟩
  · rw [if_neg (mt Block.rowsFor_eq_zero_iff.1 hwide)]
    exact .inr ⟨Nat.le_of_not_lt hwide, rfl⟩

/-- A block is refused for one of these reasons, and for no other. -/
theorem make_eq_error_iff (hl : l.Balanced) :
    (Block.make l.budget block row tag : Except MemoryError (Block α × Budget)) = .error e ↔
      l.Refuses block row tag e := by
  have htaken := hl.faithful.taken_le
  rcases make_cases (α := α) l block row tag with ⟨hwide, hmake⟩ | ⟨hfits, hmake⟩
  · rw [hmake, Except.error.injEq]
    constructor
    · rintro rfl
      exact .wide hwide
    · rintro (_ | ⟨hfits, -⟩)
      · rfl
      · omega
  · have hbytes : 0 < Block.rowsFor block row * max row 1 := by
      have hrows := mt Block.rowsFor_eq_zero_iff.1 (Nat.not_lt.2 hfits)
      exact Nat.mul_pos (Nat.pos_of_ne_zero hrows) (by omega)
    have hgranted := hl.faithful.granted_iff _ tag hbytes
    rw [hmake]
    cases hreserve : l.budget.reserve (Block.rowsFor block row * max row 1) tag with
    | ok granted =>
      -- what is granted fits, so there is no reason to refuse
      have hroom := hgranted.1 ⟨granted, hreserve⟩
      constructor
      · rintro ⟨⟩
      · rintro (hwide | ⟨-, hfull⟩) <;> omega
    | error e' =>
      have hfull : ¬ l.taken + Block.rowsFor block row * max row 1 ≤ l.budget.capacity := by
        intro hroom
        obtain ⟨granted, hok⟩ := hgranted.2 hroom
        rw [hreserve] at hok
        cases hok
      obtain ⟨rfl, -⟩ := hl.faithful.refused _ tag e' hreserve
      show Except.error _ = Except.error e ↔ _
      rw [Except.error.injEq]
      constructor
      · rintro rfl
        exact .full hfits (by omega)
      · rintro (hwide | -)
        · omega
        · rfl

/-- The same, said of the ledger. -/
theorem makeBlock_eq_error_iff (hl : l.Balanced) :
    (l.makeBlock block row tag : Except MemoryError (Block α) × Ledger).1 = .error e ↔
      l.Refuses block row tag e := by
  rw [← make_eq_error_iff (α := α) hl, makeBlock_eq]
  cases (Block.make l.budget block row tag : Except MemoryError (Block α × Budget)) <;> simp

/-! ## The block among the holders of its account -/

/-- The ledger of all holders, of whom one more holds this reservation. -/
def holding (l : Ledger) (r : Reservation) : Ledger := { l with live := r :: l.live }

/-- What the others do, seen from the ledger of all holders. -/
def Event.behind : Event → Event
  | .request bytes tag => .request bytes tag
  | .giveBack place => .giveBack (place + 1)

/-- What the others do leaves the reservation in place. -/
theorem holding_step (l : Ledger) (r : Reservation) (event : Event) :
    (l.step event).holding r = (l.holding r).step event.behind := by
  cases event with
  | request bytes tag =>
    show _ = step { l with live := r :: l.live } (.request bytes tag)
    rw [step_request, step_request]
    unfold holding
    cases l.budget.reserve bytes tag <;> rfl
  | giveBack place =>
    show _ = step { l with live := r :: l.live } (.giveBack (place + 1))
    simp only [step, holding, List.getElem?_cons_succ, List.eraseIdx_cons_succ]
    cases l.live[place]? <;> rfl

/-- Whether a ledger is balanced does not depend on the order of its reservations. -/
theorem Balanced.of_perm {live : List Reservation} (hl : l.Balanced) (h : l.live.Perm live) :
    Balanced { l with live } := by
  have htaken : taken { l with live } = l.taken := (h.map Reservation.bytes).sum_eq.symm
  refine ⟨hl.sound, ?_, fun r hr => hl.account_eq r (h.symm.subset hr), ?_⟩
  · rw [htaken]
    exact hl.used_eq
  · rw [htaken]
    exact hl.taken_le

theorem taken_holding (l : Ledger) (r : Reservation) : (l.holding r).taken = r.bytes + l.taken := by
  unfold holding taken
  rw [List.map_cons, List.sum_cons]

/-- A block that is made holds the bytes of its rows. -/
theorem of_makeBlock (hl : l.Balanced) {made : Block α} {others : Ledger}
    (h : l.makeBlock block row tag = (.ok made, others)) :
    (others.holding made.reservation).Balanced ∧ others.live = l.live ∧ made.rows = #[] ∧
      made.peak.level = 0 ∧ made.capacity = Block.rowsFor block row ∧ made.tag = tag ∧
      made.reservation.bytes = Block.rowsFor block row * max row 1 ∧
      others.budget.capacity = l.budget.capacity := by
  rw [makeBlock_eq] at h
  cases hmake : (Block.make l.budget block row tag : Except MemoryError (Block α × Budget)) with
  | error e =>
    rw [hmake] at h
    cases h
  | ok found =>
    obtain ⟨made', budget⟩ := found
    rw [hmake] at h
    cases h
    obtain ⟨-, r, hreserve, rfl⟩ := Block.make_eq_ok_iff.1 hmake
    have hnext := next_of_reserve hl hreserve
    obtain ⟨-, hr, -⟩ := Budget.reserve_eq_ok_iff.1 hreserve
    have hbytes : r.bytes = Block.rowsFor block row * max row 1 := by
      rw [hr]
      rfl
    refine ⟨?_, rfl, rfl, rfl, rfl, rfl, hbytes, hnext.capacity_eq⟩
    exact hnext.balanced.of_perm (List.perm_append_singleton r l.live)

end Ledger

/-! ## A block in use -/

namespace Block

variable {α : Type}

/-- What a row is answered: an error, or whether the block is full now. -/
def answer (b : Block α) (row : α) : Except MemoryError Bool := ((put row).outcome b).1

/-- A block in use. -/
structure Use (α : Type) where
  /-- The block. -/
  block : Block α
  /-- Its account, with what others hold of it. -/
  others : Ledger
  /-- The rows that were accepted since the block was last emptied, in their order. -/
  kept : List α := []

namespace Use

/-- What happens while a block is in use. -/
inductive Event (α : Type) where
  /-- A row is put into the block. -/
  | push (row : α)
  /-- The block is emptied. -/
  | reset
  /-- Others do something to the account. -/
  | other (event : Ledger.Event)

/-- One more event. -/
def next (u : Use α) : Event α → Use α
  | .push row =>
    match (put row).run u.block with
    | .ok _ block => { u with block, kept := u.kept ++ [row] }
    | .error _ block => { u with block }
  | .reset => { u with block := u.block.reset, kept := [] }
  | .other event => { u with others := u.others.step event }

/-- Events, one after the other. -/
def run (u : Use α) (events : List (Event α)) : Use α := events.foldl next u

theorem run_concat (u : Use α) (events : List (Event α)) (event : Event α) :
    u.run (events ++ [event]) = (u.run events).next event := List.foldl_concat ..

variable {made : Block α} {u : Use α}

/-- What stays true of a block that was made as `made`. -/
structure Kept (made : Block α) (u : Use α) : Prop where
  /-- It holds the bytes that it was made with. -/
  reservation_eq : u.block.reservation = made.reservation
  /-- It has room for as many rows. -/
  capacity_eq : u.block.capacity = made.capacity
  /-- It says what it is for. -/
  tag_eq : u.block.tag = made.tag
  /-- The account counts the bytes of the block and those of the others. -/
  balanced : (u.others.holding made.reservation).Balanced
  /-- The rows are those that were accepted. -/
  rows_eq : u.block.rows.toList = u.kept
  /-- There are no more than fit. -/
  length_le : u.kept.length ≤ made.capacity

/-- How many rows the block has. -/
theorem Kept.size_eq (h : Kept made u) : u.block.rows.size = u.kept.length := by
  rw [← h.rows_eq, Array.length_toList]

/-- A row goes into a block that has room, and is refused by one that has none, which stays as it was. -/
theorem Kept.put_run (h : Kept made u) (row : α) : (put row).run u.block =
    if u.kept.length = made.capacity then .error (.blockFull made.tag made.capacity) u.block
    else .ok (decide (u.kept.length + 1 = made.capacity)) (u.block.append row) := by
  have hle := h.length_le
  have hfull : u.block.isFull = decide (u.kept.length = made.capacity) := by
    unfold isFull
    rw [h.size_eq, h.capacity_eq, decide_eq_decide]
    omega
  have hnow : (u.block.append row).isFull = decide (made.capacity ≤ u.kept.length + 1) := by
    unfold isFull append
    rw [Array.size_push, h.size_eq, h.capacity_eq]
  rw [Block.put_run, hfull, hnow, h.capacity_eq, h.tag_eq]
  by_cases hlength : u.kept.length = made.capacity
  · simp [hlength]
  · have hlast : made.capacity ≤ u.kept.length + 1 ↔ u.kept.length + 1 = made.capacity := by omega
    simp [hlength, hlast]

/-- A row is accepted exactly if the block has room, and changes nothing otherwise. -/
theorem Kept.next_push (h : Kept made u) (row : α) : u.next (.push row) =
    if u.kept.length = made.capacity then u
    else { u with block := u.block.append row, kept := u.kept ++ [row] } := by
  simp only [Use.next, h.put_run row]
  by_cases hfull : u.kept.length = made.capacity
  · rw [if_pos hfull, if_pos hfull]
  · rw [if_neg hfull, if_neg hfull]

/-- One more event keeps all that. -/
theorem Kept.next (h : Kept made u) (event : Event α) : Kept made (u.next event) := by
  cases event with
  | push row =>
    rw [h.next_push row]
    by_cases hfull : u.kept.length = made.capacity
    · rw [if_pos hfull]
      exact h
    · rw [if_neg hfull]
      refine ⟨h.reservation_eq, h.capacity_eq, h.tag_eq, h.balanced, ?_, ?_⟩
      · show (u.block.append row).rows.toList = u.kept ++ [row]
        rw [← h.rows_eq]
        exact Array.toList_push
      · show (u.kept ++ [row]).length ≤ made.capacity
        have hle := h.length_le
        rw [List.length_append, List.length_singleton]
        omega
  | reset =>
    exact ⟨h.reservation_eq, h.capacity_eq, h.tag_eq, h.balanced, rfl, Nat.zero_le _⟩
  | other event =>
    refine ⟨h.reservation_eq, h.capacity_eq, h.tag_eq, ?_, h.rows_eq, h.length_le⟩
    show ((u.others.step event).holding made.reservation).Balanced
    rw [Ledger.holding_step]
    exact (Ledger.next_step h.balanced _).balanced

/-- Any events keep all that. -/
theorem Kept.run (h : Kept made u) (events : List (Event α)) : Kept made (u.run events) := by
  induction events generalizing u with
  | nil => exact h
  | cons event events ih => exact ih (h.next event)

/-- The mark of the block knows the rows after an event, if it knew those before it. -/
theorem Kept.peak_next (h : Kept made u) (hmarked : u.kept.length ≤ u.block.peak.level)
    (event : Event α) :
    (u.next event).block.peak.level = max u.block.peak.level (u.next event).kept.length := by
  cases event with
  | push row =>
    rw [h.next_push row]
    by_cases hfull : u.kept.length = made.capacity
    · rw [if_pos hfull]
      exact (Nat.max_eq_left hmarked).symm
    · rw [if_neg hfull]
      show (u.block.append row).peak.level = max _ (u.kept ++ [row]).length
      simp [append, h.size_eq]
  | reset => exact (Nat.max_eq_left (Nat.zero_le _)).symm
  | other event => exact (Nat.max_eq_left hmarked).symm

/-- The mark of the block is the largest number of rows that it had at any time. -/
structure Marked (u : Use α) (events : List (Event α)) : Prop where
  /-- It never had more rows. -/
  length_le : ∀ first, first <+: events →
    (u.run first).kept.length ≤ (u.run events).block.peak.level
  /-- At some time it had as many. -/
  reached : ∃ first, first <+: events ∧
    (u.run first).kept.length = (u.run events).block.peak.level

/-- A block that is empty and unmarked at first is marked by its events. -/
theorem Kept.marked (h : Kept made u) (hempty : u.kept = []) (hpeak : u.block.peak.level = 0)
    (events : List (Event α)) : Marked u events := by
  induction events using List.reverseRecOn with
  | nil =>
    have hnone : (u.run []).kept.length = (u.run []).block.peak.level := by
      show u.kept.length = u.block.peak.level
      rw [hempty, hpeak, List.length_nil]
    constructor
    · intro first hfirst
      rw [List.prefix_nil.1 hfirst]
      exact Nat.le_of_eq hnone
    · exact ⟨[], List.prefix_refl _, hnone⟩
  | append_singleton events event ih =>
    have hnext := (h.run events).peak_next (ih.length_le events (List.prefix_refl _)) event
    rw [← run_concat] at hnext
    constructor
    · intro first hfirst
      rcases List.prefix_concat_iff.1 hfirst with rfl | hfirst
      · omega
      · have := ih.length_le first hfirst
        omega
    · -- either the last event reached the mark, or one before it did
      rcases Nat.le_total (u.run events).block.peak.level
        (u.run (events ++ [event])).kept.length with hlast | hbefore
      · exact ⟨_, List.prefix_refl _, by omega⟩
      · obtain ⟨first, hfirst, hreached⟩ := ih.reached
        exact ⟨first, hfirst.trans (List.prefix_append _ _), by omega⟩

/-- All that a block of `capacity` rows and `bytes` bytes and its account tell is true. -/
structure Exact (capacity bytes : Nat) (tag : String) (u : Use α) : Prop where
  /-- The account counts the bytes of the block beside those of the others. -/
  used_eq : u.others.budget.used = bytes + u.others.taken
  /-- Once the block is given back, it counts those of the others. -/
  used_of_release : (u.block.release u.others.budget).used = u.others.taken
  /-- The block has the rows that were accepted since it was last emptied. -/
  rows_eq : u.block.rows.toList = u.kept
  /-- There are no more than fit. -/
  length_le : u.kept.length ≤ capacity
  /-- A row is answered with whether it makes the block full. -/
  answer_ok_iff : ∀ row full, u.block.answer row = .ok full ↔
    u.kept.length < capacity ∧ full = decide (u.kept.length + 1 = capacity)
  /-- It is refused exactly if the block is full already. -/
  answer_error_iff : ∀ row e, u.block.answer row = .error e ↔
    u.kept.length = capacity ∧ e = .blockFull tag capacity
  /-- A row that is refused changes nothing. -/
  next_of_full : ∀ row, u.kept.length = capacity → u.next (.push row) = u

/-- What stays true of a block is all that it tells. -/
theorem Kept.exact (h : Kept made u) :
    Exact made.capacity made.reservation.bytes made.tag u where
  used_eq := h.balanced.used_eq.trans (Ledger.taken_holding _ _)
  used_of_release := by
    have hfirst : (u.others.holding made.reservation).live[0]? = some made.reservation := rfl
    unfold release
    rw [h.reservation_eq]
    exact (Ledger.next_of_giveBack h.balanced hfirst).balanced.used_eq
  rows_eq := h.rows_eq
  length_le := h.length_le
  answer_ok_iff row full := by
    have hle := h.length_le
    unfold answer InPlace.outcome
    rw [h.put_run row]
    by_cases hfull : u.kept.length = made.capacity
    · rw [if_pos hfull]
      constructor
      · rintro ⟨⟩
      · rintro ⟨hlt, -⟩
        omega
    · rw [if_neg hfull]
      show Except.ok _ = Except.ok full ↔ _
      rw [Except.ok.injEq]
      constructor
      · rintro rfl
        exact ⟨by omega, rfl⟩
      · rintro ⟨-, rfl⟩
        rfl
  answer_error_iff row e := by
    unfold answer InPlace.outcome
    rw [h.put_run row]
    by_cases hfull : u.kept.length = made.capacity
    · rw [if_pos hfull]
      show Except.error _ = Except.error e ↔ _
      rw [Except.error.injEq]
      exact ⟨fun he => ⟨hfull, he.symm⟩, fun he => he.2.symm⟩
    · rw [if_neg hfull]
      constructor
      · rintro ⟨⟩
      · rintro ⟨hfull', -⟩
        exact absurd hfull' hfull
  next_of_full row hfull := by
    rw [h.next_push row, if_pos hfull]

end Use

/-! ## From the making to the release -/

/-- Whatever an account of a capacity below the top of the words went through, a block asks it for
bytes that fit a word. It is refused if a row is wider than the block, or else if these bytes are more
than what is left of the account, and then the account stays as it was. Otherwise it holds these
bytes until it is given back, whatever happens meanwhile to the block and to the account, has the rows
that were accepted since it was last emptied, refuses a row only when it is full, tells which row makes
it full, and its mark is the largest number of rows that it ever had. -/
theorem usage_exact {capacity block row : Nat} (hcapacity : capacity < Word.top)
    (hblock : block < Word.limit) (account : Nat) (earlier : List Ledger.Event) (tag : String) :
    let l := (Ledger.opened account capacity).run earlier
    let bytes := rowsFor block row * max row 1
    bytes < Word.limit ∧
      (∀ e, (l.makeBlock block row tag : Except MemoryError (Block α) × Ledger).1 = .error e ↔
        l.Refuses block row tag e) ∧
      (∀ e, (l.makeBlock block row tag : Except MemoryError (Block α) × Ledger).1 = .error e →
        (l.makeBlock block row tag : Except MemoryError (Block α) × Ledger).2 = l) ∧
      l.budget.capacity = capacity ∧
      ∀ (made : Block α) (others : Ledger), l.makeBlock block row tag = (.ok made, others) →
        others.live = l.live ∧ made.reservation.bytes = bytes ∧
          ∀ events : List (Use.Event α),
            let u : Use α := { block := made, others }
            Use.Exact (block / max row 1) bytes tag (u.run events) ∧ Use.Marked u events := by
  intro l bytes
  obtain ⟨hl, hcap, -⟩ := Ledger.balanced_run (Ledger.balanced_opened hcapacity account) earlier
  refine ⟨Nat.lt_of_le_of_lt (rowsFor_mul_le block row) hblock,
    fun e => Ledger.makeBlock_eq_error_iff hl, ?_, hcap, ?_⟩
  · intro e he
    rw [Ledger.makeBlock_eq] at he ⊢
    cases hmake : (make l.budget block row tag : Except MemoryError (Block α × Budget)) with
    | error e' => rfl
    | ok found =>
      rw [hmake] at he
      cases he
  · intro made others hmade
    obtain ⟨hbalanced, hlive, hrows, hpeak, hroom, htag, hbytes, -⟩ := Ledger.of_makeBlock hl hmade
    refine ⟨hlive, hbytes, ?_⟩
    intro events u
    have hkept : Use.Kept made u :=
      ⟨rfl, rfl, rfl, hbalanced, congrArg Array.toList hrows, Nat.zero_le _⟩
    have hexact := (hkept.run events).exact
    rw [hroom, hbytes, htag] at hexact
    exact ⟨hexact, hkept.marked rfl hpeak events⟩

/-- An account of a hundred bytes, half of it a sorter's, grants a block of three rows. The sorter goes
while the block is in use: the block is filled, refuses a row, is emptied and takes another. -/
theorem usage_exact_of_hundred :
    let l := (Ledger.opened 0 100).run [.request 50 "sort"]
    let made : Block Nat :=
      { capacity := 3, reservation := ⟨0, 18, "left"⟩, tag := "left" }
    let others : Ledger := { l with budget := { l.budget with used := 68, peak := ⟨68⟩ } }
    let events : List (Use.Event Nat) :=
      [.push 1, .push 2, .push 3, .push 4, .other (.giveBack 0), .reset, .push 5]
    let u := Use.run { block := made, others } events
    100 < Word.top ∧ 20 < Word.limit ∧ l.makeBlock 20 6 "left" = (.ok made, others) ∧
      Use.Exact 3 18 "left" u ∧ u.kept = [5] ∧ u.block.peak.level = 3 ∧
      u.others.budget.used = 18 := by
  intro l made others events u
  have hmade : l.makeBlock 20 6 "left" = (.ok made, others) := by rfl
  have h100 : 100 < Word.top := by decide
  have h20 : 20 < Word.limit := by decide
  obtain ⟨-, -, -, -, hall⟩ := @usage_exact Nat 100 20 6 h100 h20 0 [.request 50 "sort"] "left"
  obtain ⟨-, -, hevents⟩ := hall made others hmade
  obtain ⟨hexact, -⟩ := hevents events
  exact ⟨h100, h20, hmade, hexact, rfl, rfl, rfl⟩

end Block

end RowStream
