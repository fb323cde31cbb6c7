import Mathlib.Algebra.Order.Floor.Div
import RowStream.Memory.Block

/-!
# `RowStream.Proofs.Memory.Chunks` — rows that go through a block

Rows are put into a block one by one, and whenever it is full it is emptied. The block is emptied of
consecutive pieces of the rows, each as long as the block has room for, and what stands in it at the
end is a piece that is shorter. So however many rows there are, the block cuts them in the same way.

## Contents
- `chunks` — consecutive pieces of a list; `flatten_chunks`, `length_chunks`.
- `Cut` — a list as full pieces and a rest that has room left.
- `Block.Filled` — what is known of a block on its way; `Filled.push`, `Filled.push_full`,
  `Filled.chunks_of_empty`, `Filled.chunks_of_rest`.
-/

namespace RowStream

section Chunks

variable {α : Type} {n : Nat} {rows rest : List α} {pieces : List (List α)}

/-- Consecutive pieces of `n` rows each; the last one may be shorter, and none is empty. -/
def chunks (n : Nat) : List α → List (List α)
  | [] => []
  | row :: rows => (row :: rows.take (n - 1)) :: chunks n (rows.drop (n - 1))
termination_by rows => rows.length
decreasing_by
  rw [List.length_drop, List.length_cons]
  omega

@[simp] theorem chunks_nil (n : Nat) : chunks n ([] : List α) = [] := by
  rw [chunks]

/-- The first piece, and then the others. -/
theorem chunks_of_ne_nil (hn : 0 < n) (h : rows ≠ []) :
    chunks n rows = rows.take n :: chunks n (rows.drop n) := by
  cases rows with
  | nil => exact absurd rfl h
  | cons row rows =>
    obtain ⟨n, rfl⟩ := Nat.exists_eq_succ_of_ne_zero (Nat.ne_of_gt hn)
    rw [chunks]
    rfl

/-- The pieces make up the rows. -/
theorem flatten_chunks (n : Nat) (rows : List α) : (chunks n rows).flatten = rows := by
  fun_induction chunks n rows with
  | case1 => rfl
  | case2 row rows ih =>
    rw [List.flatten_cons, ih, List.cons_append, List.take_append_drop]

/-- There are as many pieces as it takes to hold all rows. -/
theorem length_chunks (hn : 0 < n) (rows : List α) :
    (chunks n rows).length = rows.length ⌈/⌉ n := by
  rw [Nat.ceilDiv_eq_add_pred_div]
  fun_induction chunks n rows with
  | case1 =>
    rw [List.length_nil, List.length_nil, Nat.zero_add]
    exact (Nat.div_eq_of_lt (Nat.pred_lt_self hn)).symm
  | case2 row rows ih =>
    rw [List.length_cons, List.length_cons, ih, List.length_drop]
    by_cases hshort : rows.length < n - 1
    · -- a single piece
      have hzero : (rows.length - (n - 1) + n - 1) / n = 0 := Nat.div_eq_of_lt (by omega)
      have hone : (rows.length + 1 + n - 1) / n = 1 := Nat.div_eq_of_lt_le (by omega) (by omega)
      rw [hzero, hone]
    · have hrest : rows.length + 1 + n - 1 = (rows.length - (n - 1) + n - 1) + n := by omega
      rw [hrest, Nat.add_div_right _ hn]

/-! ## Full pieces and a rest -/

/-- The rows are full pieces and behind them a rest, which has room left. -/
structure Cut (n : Nat) (rows : List α) (pieces : List (List α)) (rest : List α) : Prop where
  /-- Nothing is lost. -/
  rows_eq : rows = pieces.flatten ++ rest
  /-- Each piece is full. -/
  full : ∀ piece ∈ pieces, piece.length = n
  /-- The rest has room. -/
  room : rest.length < n

namespace Cut

/-- Before the first row. -/
theorem nil (hn : 0 < n) : Cut n ([] : List α) [] [] := ⟨rfl, nofun, hn⟩

/-- One more row, for which there is still room behind it. -/
theorem push (h : Cut n rows pieces rest) {row : α} (hroom : rest.length + 1 < n) :
    Cut n (rows ++ [row]) pieces (rest ++ [row]) where
  rows_eq := by rw [h.rows_eq, List.append_assoc]
  full := h.full
  room := by simpa using hroom

/-- One more row, which makes the rest full. -/
theorem push_full (h : Cut n rows pieces rest) {row : α} (hfull : n ≤ rest.length + 1) :
    Cut n (rows ++ [row]) (pieces ++ [rest ++ [row]]) [] where
  rows_eq := by
    rw [h.rows_eq, List.flatten_append, List.flatten_singleton, List.append_assoc, List.append_nil]
  full := by
    intro piece hpiece
    rcases List.mem_append.1 hpiece with hold | hnew
    · exact h.full piece hold
    · have hroom := h.room
      rw [List.mem_singleton.1 hnew, List.length_append, List.length_singleton]
      omega
  room := Nat.lt_of_le_of_lt (Nat.zero_le _) h.room

/-- Either all rows are in the rest, or there are at least as many as a full piece has. -/
theorem length_cases (h : Cut n rows pieces rest) :
    rows.length = rest.length ∨ n ≤ rows.length := by
  obtain ⟨rfl, hfull, -⟩ := h
  cases pieces with
  | nil => exact .inl rfl
  | cons piece pieces =>
    right
    rw [List.flatten_cons, List.append_assoc, List.length_append, hfull piece (List.mem_cons_self ..)]
    exact Nat.le_add_right _ _

/-- The chunks of the rows are the full pieces and, if there is one, the rest. -/
theorem chunks_eq (h : Cut n rows pieces rest) :
    chunks n rows = pieces ++ if rest = [] then [] else [rest] := by
  obtain ⟨rfl, hfull, hroom⟩ := h
  have hn : 0 < n := Nat.lt_of_le_of_lt (Nat.zero_le _) hroom
  induction pieces with
  | nil =>
    rw [List.flatten_nil, List.nil_append, List.nil_append]
    by_cases hrest : rest = []
    · rw [if_pos hrest, hrest, chunks_nil]
    · rw [if_neg hrest, chunks_of_ne_nil hn hrest, List.take_of_length_le hroom.le,
        List.drop_of_length_le hroom.le, chunks_nil]
  | cons piece pieces ih =>
    have hlength : piece.length = n := hfull piece (List.mem_cons_self ..)
    have hne : (piece :: pieces).flatten ++ rest ≠ [] := by
      intro hnil
      have := congrArg List.length hnil
      simp only [List.flatten_cons, List.length_append, List.length_nil] at this
      omega
    rw [chunks_of_ne_nil hn hne, List.flatten_cons, List.append_assoc, List.cons_append]
    rw [List.take_append_of_le_length hlength.ge, List.drop_append_of_le_length hlength.ge,
      List.take_of_length_le hlength.le, List.drop_of_length_le hlength.le, List.nil_append]
    exact congrArg (piece :: ·) (ih fun piece hpiece => hfull piece (List.mem_cons_of_mem _ hpiece))

end Cut

end Chunks

/-! ## Blocks -/

namespace Block

variable {α : Type} {b b₀ : Block α} {row : α} {rows : List α} {pieces : List (List α)}

/-- A block with room takes a row. -/
theorem push_of_room (h : b.rows.size < b.capacity) : b.push row = .ok (b.append row) := by
  rw [push_eq_ite]
  unfold isFull
  rw [if_neg (by simpa using h)]

@[simp] theorem toList_append : (b.append row).rows.toList = b.rows.toList ++ [row] := by
  simp [append]

/-- The block `b₀` after `rows` went through it: it was emptied of the pieces, and the rest stands in
it. -/
structure Filled (b₀ : Block α) (rows : List α) (pieces : List (List α)) (b : Block α) : Prop where
  /-- The block keeps its size. -/
  capacity_eq : b.capacity = b₀.capacity
  /-- It cut the rows at its size. -/
  cut : Cut b₀.capacity rows pieces b.rows.toList
  /-- It never held more of them than there were, nor more than it has room for. -/
  peak_eq : b.peak.level = max b₀.peak.level (min rows.length b₀.capacity)

namespace Filled

/-- An empty block, before the first row. -/
theorem nil (hempty : b.rows = #[]) (hcapacity : 0 < b.capacity) : Filled b [] [] b where
  capacity_eq := rfl
  cut := by
    rw [hempty]
    exact Cut.nil hcapacity
  peak_eq := by simp

/-- A row goes into the block. -/
theorem push_eq (h : Filled b₀ rows pieces b) (row : α) : b.push row = .ok (b.append row) := by
  have hroom := h.cut.room
  rw [Array.length_toList, ← h.capacity_eq] at hroom
  exact push_of_room hroom

/-- What the block held at most, after one more row. -/
theorem peak_append (h : Filled b₀ rows pieces b) (row : α) :
    (b.append row).peak.level = max b₀.peak.level (min (rows ++ [row]).length b₀.capacity) := by
  have hroom := h.cut.room
  have hsize : (b.append row).peak.level = max b.peak.level (b.rows.toList.length + 1) := by
    simp [append]
  rw [hsize, h.peak_eq, List.length_append, List.length_singleton]
  rcases h.cut.length_cases with hshort | hlong <;> omega

/-- A row that leaves room. -/
theorem push (h : Filled b₀ rows pieces b) {row : α} (hroom : (b.append row).isFull = false) :
    Filled b₀ (rows ++ [row]) pieces (b.append row) where
  capacity_eq := h.capacity_eq
  cut := by
    rw [toList_append]
    refine h.cut.push ?_
    rw [← h.capacity_eq, Array.length_toList]
    simpa [isFull, append] using hroom
  peak_eq := h.peak_append row

/-- A row that makes the block full, which is then emptied. -/
theorem push_full (h : Filled b₀ rows pieces b) {row : α} (hfull : (b.append row).isFull = true) :
    Filled b₀ (rows ++ [row]) (pieces ++ [(b.append row).rows.toList]) (b.append row).reset where
  capacity_eq := h.capacity_eq
  cut := by
    rw [toList_append]
    refine h.cut.push_full ?_
    rw [← h.capacity_eq, Array.length_toList]
    simpa [isFull, append] using hfull
  peak_eq := h.peak_append row

/-- Where the block is empty at the end, the chunks of the rows are what it was emptied of. -/
theorem chunks_of_empty (h : Filled b₀ rows pieces b) (hempty : b.rows.isEmpty = true) :
    chunks b₀.capacity rows = pieces := by
  rw [h.cut.chunks_eq, Array.isEmpty_iff.1 hempty, if_pos rfl, List.append_nil]

/-- Otherwise, the rest is the last chunk. -/
theorem chunks_of_rest (h : Filled b₀ rows pieces b) (hrest : ¬ b.rows.isEmpty = true) :
    chunks b₀.capacity rows = pieces ++ [b.rows.toList] := by
  rw [h.cut.chunks_eq, if_neg]
  intro hnil
  exact hrest (Array.isEmpty_iff.2 (Array.toList_eq_nil_iff.1 hnil))

end Filled

end Block

end RowStream
