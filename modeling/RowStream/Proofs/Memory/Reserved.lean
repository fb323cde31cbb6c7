import RowStream.Memory.Block

/-!
# `RowStream.Proofs.Memory.Reserved` — bytes that are taken and given back

What a request is answered depends on the account as it stands and not on its mark, and giving a
block back restores the account up to that mark. Both need that the counter never fills up, which is
so for an account whose capacity lies below the top of the words.

## Contents
- `Budget.Sound` — no more is taken than there is, and the counter cannot fill up.
- `Budget.unmarked` — the account without its mark.
- `Block.make_of_wide`, `Block.make_of_no_room`, `Block.make_of_fits` — when a block is refused, and when
  it is made.
- `Block.make_unmarked`, `Block.unmarked_release` — blocks are made alike from accounts that differ
  in their marks only, and a block that is given back leaves the account as it was.
-/

namespace RowStream

namespace Budget

/-- No more than the capacity is taken, and the capacity lies below the top of the words. -/
structure Sound (b : Budget) : Prop where
  /-- What is taken was there. -/
  used_le : b.used ≤ b.capacity
  /-- The saturated sum of a granted request is the sum. -/
  capacity_lt : b.capacity < Word.top

/-- The account without its mark. -/
def unmarked (b : Budget) : Budget := { b with peak := {} }

/-- Soundness does not look at the mark. -/
theorem sound_unmarked_iff {b : Budget} : b.unmarked.Sound ↔ b.Sound :=
  ⟨fun h => ⟨h.used_le, h.capacity_lt⟩, fun h => ⟨h.used_le, h.capacity_lt⟩⟩

/-- A grant does not look at the mark. -/
theorem reserve_unmarked (b : Budget) (bytes : Nat) (tag : String) :
    (b.unmarked.reserve bytes tag).map (fun g => (g.1, g.2.unmarked)) =
      (b.reserve bytes tag).map (fun g => (g.1, g.2.unmarked)) := by
  have hcapacity : b.unmarked.capacity = b.capacity := rfl
  have hused : b.unmarked.used = b.used := rfl
  rw [reserve_eq_ite, reserve_eq_ite, hcapacity, hused]
  by_cases hrefused : 0 < bytes ∧ b.capacity < Word.saturatingAdd b.used bytes
  · rw [if_pos hrefused, if_pos hrefused]
  · rw [if_neg hrefused, if_neg hrefused]
    unfold charged
    by_cases h0 : bytes = 0
    · rw [if_pos h0, if_pos h0]
      rfl
    · rw [if_neg h0, if_neg h0]
      rfl

/-- Giving back does not look at the mark. -/
theorem release_unmarked (b : Budget) (r : Reservation) :
    b.unmarked.release r = (b.release r).unmarked := by
  unfold release unmarked
  split <;> rfl

variable {b b' : Budget} {bytes : Nat} {tag : String} {r : Reservation}

/-- The saturated sum is below the top only where it is the sum. -/
theorem lt_limit_of_saturatingAdd_le {a c : Nat} (hc : c < Word.top)
    (h : Word.saturatingAdd a bytes ≤ c) : a + bytes < Word.limit ∧ a + bytes ≤ c := by
  unfold Word.saturatingAdd Word.top at *
  omega

/-- A granted request fits the capacity. -/
theorem fits_of_reserve (hb : b.Sound) (h : b.reserve bytes tag = .ok (r, b')) :
    b.used + bytes < Word.limit ∧ b.used + bytes ≤ b.capacity := by
  have htop := hb.capacity_lt
  have hused := hb.used_le
  obtain ⟨hfits, -, -⟩ := reserve_eq_ok_iff.1 h
  rcases Nat.eq_zero_or_pos bytes with rfl | hpos
  · unfold Word.top at htop
    omega
  · exact lt_limit_of_saturatingAdd_le htop (hfits hpos)

/-- A granted request takes its bytes and leaves a sound account. -/
theorem of_reserve (hb : b.Sound) (h : b.reserve bytes tag = .ok (r, b')) :
    b'.Sound ∧ b'.capacity = b.capacity ∧ b'.used = b.used + bytes ∧
      (b'.release r).unmarked = b.unmarked := by
  obtain ⟨hlimit, hcap⟩ := fits_of_reserve hb h
  obtain ⟨-, rfl, rfl⟩ := reserve_eq_ok_iff.1 h
  have hused := used_charged hlimit
  refine ⟨⟨?_, ?_⟩, capacity_charged b bytes, hused, ?_⟩
  · rw [hused, capacity_charged]
    exact hcap
  · rw [capacity_charged]
    exact hb.capacity_lt
  · have hback := used_release_charged hlimit tag
    have hkept : ((b.charged bytes).release (b.granted bytes tag)).unmarked =
        { b.unmarked with used := ((b.charged bytes).release (b.granted bytes tag)).used } := by
      unfold release charged unmarked
      split <;> split <;> rfl
    rw [hkept, hback]
    rfl

/-- What fits the capacity is granted. -/
theorem reserve_of_fits (bytes : Nat) (tag : String)
    (h : b.used + bytes ≤ b.capacity) : ∃ granted, b.reserve bytes tag = .ok granted := by
  have hsum : Word.saturatingAdd b.used bytes ≤ b.capacity := Nat.le_trans (Nat.min_le_left _ _) h
  exact ⟨_, reserve_eq_ok_iff.2 ⟨fun _ => hsum, rfl, rfl⟩⟩

end Budget

namespace Block

variable {α : Type} {b b' : Budget} {block row : Nat} {tag : String} {made : Block α}

/-- What is made does not depend on the mark of the account. -/
theorem make_unmarked (b : Budget) (block row : Nat) (tag : String) :
    (make b.unmarked block row tag : Except MemoryError (Block α × Budget)).map
        (fun m => (m.1, m.2.unmarked)) =
      (make b block row tag).map (fun m => (m.1, m.2.unmarked)) := by
  rw [make_eq_ite, make_eq_ite]
  by_cases h : rowsFor block row = 0
  · rw [if_pos h, if_pos h]
  · rw [if_neg h, if_neg h]
    have hreserve := Budget.reserve_unmarked b (rowsFor block row * max row 1) tag
    revert hreserve
    cases b.unmarked.reserve (rowsFor block row * max row 1) tag <;>
      cases b.reserve (rowsFor block row * max row 1) tag <;> simp +contextual [Except.map]

/-- A block is made exactly if a row fits it and the bytes of its rows are granted. -/
theorem make_eq_ok_iff :
    make b block row tag = .ok (made, b') ↔
      rowsFor block row ≠ 0 ∧ ∃ r, b.reserve (rowsFor block row * max row 1) tag = .ok (r, b') ∧
        made = { capacity := rowsFor block row, reservation := r, tag } := by
  rw [make_eq_ite]
  by_cases h : rowsFor block row = 0
  · simp [h]
  · rw [if_neg h]
    cases hr : b.reserve (rowsFor block row * max row 1) tag with
    | error e => simp [Except.map]
    | ok granted =>
      obtain ⟨r, b''⟩ := granted
      simp only [Except.map, Except.ok.injEq, Prod.mk.injEq]
      constructor
      · rintro ⟨rfl, rfl⟩
        exact ⟨h, r, ⟨rfl, rfl⟩, rfl⟩
      · rintro ⟨-, r, ⟨rfl, rfl⟩, rfl⟩
        exact ⟨rfl, rfl⟩

/-- A block is made without rows. -/
theorem rows_of_make (h : make b block row tag = .ok (made, b')) : made.rows = #[] := by
  obtain ⟨-, r, -, rfl⟩ := make_eq_ok_iff.1 h
  rfl

/-- The rows of a block take no more than the bytes of the block. -/
theorem rowsFor_mul_le (block row : Nat) : rowsFor block row * max row 1 ≤ block :=
  Nat.div_mul_le_self block (max row 1)

/-- Of rows that have a width, a block takes the bytes of as many as fit. -/
theorem rowsFor_mul_of_pos (block : Nat) {row : Nat} (h : 0 < row) :
    rowsFor block row * max row 1 = block / row * row := by
  unfold rowsFor
  rw [Nat.max_eq_left h]

/-- A block has room for no row exactly if a row is wider than the block. -/
theorem rowsFor_eq_zero_iff {block row : Nat} : rowsFor block row = 0 ↔ block < max row 1 := by
  unfold rowsFor
  rw [Nat.div_eq_zero_iff]
  omega

/-- A block has room for a row exactly if the row is not wider than the block. -/
theorem rowsFor_pos_iff {block row : Nat} (hblock : 0 < block) :
    0 < rowsFor block row ↔ row ≤ block := by
  rw [Nat.pos_iff_ne_zero, ne_eq, rowsFor_eq_zero_iff]
  omega

/-- A row that is wider than the block is refused before the account is asked. -/
theorem make_of_wide {b : Budget} {block row : Nat} (tag : String) (hblock : 0 < block)
    (h : block < row) :
    (make b block row tag : Except MemoryError (Block α × Budget)) =
      .error (.rowTooWide tag block row) := by
  have hzero : rowsFor block row = 0 := rowsFor_eq_zero_iff.2 (by omega)
  rw [make_eq_ite, if_pos hzero]

/-- While the account has room for the rows that fit a block, the block is made. -/
theorem make_of_fits {b : Budget} (hb : b.Sound) {block row : Nat} (tag : String)
    (hblock : 0 < block) (hrow : row ≤ block)
    (h : b.used + rowsFor block row * max row 1 ≤ b.capacity) :
    ∃ (made : Block α) (b' : Budget), make b block row tag = .ok (made, b') ∧
      made.rows = #[] ∧ 0 < made.capacity ∧ b'.Sound ∧ b'.capacity = b.capacity ∧
      b'.used = b.used + rowsFor block row * max row 1 := by
  have hpos := (rowsFor_pos_iff hblock).2 hrow
  obtain ⟨⟨r, b'⟩, hgranted⟩ := Budget.reserve_of_fits (rowsFor block row * max row 1) tag h
  obtain ⟨hsound, hcapacity, hused, -⟩ := Budget.of_reserve hb hgranted
  refine ⟨{ capacity := rowsFor block row, reservation := r, tag }, b', ?_, rfl, hpos, hsound,
    hcapacity, hused⟩
  exact make_eq_ok_iff.2 ⟨Nat.ne_of_gt hpos, r, hgranted, rfl⟩

/-- Without that room, it is refused. -/
theorem make_of_no_room {b : Budget} (hb : b.Sound) {block row : Nat} (tag : String)
    (h : b.capacity < b.used + rowsFor block row * max row 1) :
    ∃ e, (make b block row tag : Except MemoryError (Block α × Budget)) = .error e := by
  cases hmade : (make b block row tag : Except MemoryError (Block α × Budget)) with
  | error e => exact ⟨e, rfl⟩
  | ok found =>
    obtain ⟨made, b'⟩ := found
    obtain ⟨-, r, hgranted, -⟩ := make_eq_ok_iff.1 hmade
    exact absurd (Budget.fits_of_reserve hb hgranted).2 (Nat.not_le.2 h)

/-- A block that is given back leaves the account as it was, up to its mark. -/
theorem unmarked_release (hb : b.Sound) (h : make b block row tag = .ok (made, b')) :
    (made.release b').unmarked = b.unmarked := by
  obtain ⟨-, r, hr, rfl⟩ := make_eq_ok_iff.1 h
  exact (Budget.of_reserve hb hr).2.2.2

/-- Making a block leaves a sound account. -/
theorem sound_of_make (hb : b.Sound) (h : make b block row tag = .ok (made, b')) : b'.Sound := by
  obtain ⟨-, r, hr, -⟩ := make_eq_ok_iff.1 h
  exact (Budget.of_reserve hb hr).1

end Block

end RowStream
