import RowStream.Proofs.Join.Answer
import RowStream.Proofs.Join.Matching
import RowStream.Proofs.Memory.Chunks

/-!
# `RowStream.Proofs.Join.Blocks` — block by block, every pair of rows is met once

Both sides go through a block, so each is cut into chunks: the left side once, and the right side anew
for each left chunk. A full block is joined where a row makes it full, and the last one after the last
row if it holds any, and that is one block for each chunk. So the rows that are found, their order and
all counts are those of the chunks.

## Contents
- `BlockRun.Seen`, `BlockRun.Passed` — what is known in the midst of a pass over the right side, and
  behind it.
- `drainRight_passed` — one pass joins the left block with each right chunk.
- `BlockRun.Joined` — what is known between two passes; `Joined.pass`.
- `blockNestedLoopAnswer_eq` — the whole join; `blockNestedLoop_perm` — in any order.
-/

namespace RowStream

namespace Join

variable {p : Predicate} {schema : Schema}

namespace BlockRun

/-! ## One pass over the right side -/

/-- In the midst of a pass over the right side, which began with `before`: the rows that were read went
through the right block, and the pieces that it was emptied of are joined with the left block. -/
structure Seen (p : Predicate) (schema : Schema) (before : BlockRun) (rows : List Row)
    (pieces : List (List Row)) (run : BlockRun) : Prop where
  /-- The left block stays. -/
  left_eq : run.left = before.left
  /-- No further pass has begun. -/
  leftBlocks_eq : run.leftBlocks = before.leftBlocks
  /-- The rows went through the right block. -/
  filled : before.right.Filled rows pieces run.right
  /-- The pieces are joined, in their order. -/
  out_eq : run.out.toList =
    before.out.toList ++ pieces.flatMap (p.join schema before.left.rows.toList)
  /-- Each piece counts. -/
  rightBlocks_eq : run.rightBlocks = before.rightBlocks + pieces.length

theorem toList_joinBlocks (run : BlockRun) : (run.joinBlocks p schema).out.toList =
    run.out.toList ++ p.join schema run.left.rows.toList run.right.rows.toList := by
  unfold BlockRun.joinBlocks
  simp

namespace Seen

variable {before run : BlockRun} {rows : List Row} {pieces : List (List Row)}

/-- A pass begins without a row in the right block. -/
theorem nil (hempty : before.right.rows = #[]) (hcapacity : 0 < before.right.capacity) :
    Seen p schema before [] [] before where
  left_eq := rfl
  leftBlocks_eq := rfl
  filled := .nil hempty hcapacity
  out_eq := (List.append_nil _).symm
  rightBlocks_eq := rfl

/-- What joining the two blocks adds to the rows that were found. -/
theorem out_joinBlocks (h : Seen p schema before rows pieces run) {right : Block Row} :
    ({ run with right }.joinBlocks p schema).out.toList = before.out.toList ++
      (pieces ++ [right.rows.toList]).flatMap (p.join schema before.left.rows.toList) := by
  rw [toList_joinBlocks, h.out_eq, h.left_eq, List.append_assoc, List.flatMap_append,
    List.flatMap_singleton]

/-- Joining the two blocks counts as one more. -/
theorem rightBlocks_joinBlocks (h : Seen p schema before rows pieces run) {right : Block Row}
    {piece : List Row} : ({ run with right }.joinBlocks p schema).rightBlocks =
      before.rightBlocks + (pieces ++ [piece]).length := by
  show run.rightBlocks + 1 = _
  rw [h.rightBlocks_eq, List.length_append, List.length_singleton, Nat.add_assoc]

/-- One more right row goes into the block; if that is full then, it is joined. -/
theorem push (h : Seen p schema before rows pieces run) (row : Row) :
    ∃ run', run.pushRight p schema row = .ok run' ∧
      ∃ pieces', Seen p schema before (rows ++ [row]) pieces' run' := by
  have hpushed : run.pushRight p schema row =
      .ok (if (run.right.append row).isFull then
        { run with right := run.right.append row }.joinBlocks p schema
      else { run with right := run.right.append row }) := by
    unfold BlockRun.pushRight
    rw [h.filled.push_eq row]
    rfl
  refine ⟨_, hpushed, ?_⟩
  cases hfull : (run.right.append row).isFull with
  | true =>
    refine ⟨pieces ++ [(run.right.append row).rows.toList], ?_⟩
    exact {
      left_eq := h.left_eq
      leftBlocks_eq := h.leftBlocks_eq
      filled := h.filled.push_full hfull
      out_eq := h.out_joinBlocks
      rightBlocks_eq := h.rightBlocks_joinBlocks }
  | false =>
    refine ⟨pieces, ?_⟩
    exact {
      left_eq := h.left_eq
      leftBlocks_eq := h.leftBlocks_eq
      filled := h.filled.push hfull
      out_eq := h.out_eq
      rightBlocks_eq := h.rightBlocks_eq }

end Seen

/-- A whole pass over the right side, which began with `before`: the left block is joined with each
right chunk and emptied. -/
structure Passed (p : Predicate) (schema : Schema) (before : BlockRun) (right : List Row)
    (run : BlockRun) : Prop where
  /-- The left block is emptied. -/
  left_eq : run.left = before.left.reset
  /-- The right block is empty again. -/
  right_empty : run.right.rows = #[]
  /-- The right block keeps its size. -/
  right_capacity : run.right.capacity = before.right.capacity
  /-- The right block was as full as it could be. -/
  right_peak : run.right.peak.level =
    max before.right.peak.level (min right.length before.right.capacity)
  /-- The left block is joined with the right chunks, in their order. -/
  out_eq : run.out.toList = before.out.toList ++
    (chunks before.right.capacity right).flatMap (p.join schema before.left.rows.toList)
  /-- The pass counts. -/
  leftBlocks_eq : run.leftBlocks = before.leftBlocks + 1
  /-- Each right chunk counts. -/
  rightBlocks_eq : run.rightBlocks =
    before.rightBlocks + (chunks before.right.capacity right).length

/-- A pass over the right side begins with an empty right block and comes to its end. -/
theorem drainRight_passed (p : Predicate) (schema : Schema) (run : BlockRun) (right : List Row)
    (hempty : run.right.rows = #[]) (hcapacity : 0 < run.right.capacity) :
    ∃ run', run.drainRightAnswer p schema ⟨right, none⟩ = .ok run' ∧
      Passed p schema run right run' := by
  have hstart : ∃ pieces, Seen p schema { run with leftBlocks := run.leftBlocks + 1 } [] pieces
      { run with leftBlocks := run.leftBlocks + 1 } := ⟨[], Seen.nil hempty hcapacity⟩
  obtain ⟨last, hlast, pieces, hseen⟩ := Script.foldM_induct
    (I := fun rows now => ∃ pieces, Seen p schema { run with leftBlocks := run.leftBlocks + 1 } rows
      pieces now) (fun rows now row ⟨pieces, h⟩ => h.push row) right hstart
  unfold BlockRun.drainRightAnswer
  rw [hlast]
  refine ⟨_, rfl, ?_⟩
  -- what is left in the right block is the last chunk
  by_cases hnone : last.right.rows.isEmpty
  · have hchunks := hseen.filled.chunks_of_empty hnone
    simp only [hnone, if_true]
    exact {
      left_eq := congrArg Block.reset hseen.left_eq
      right_empty := Array.isEmpty_iff.1 hnone
      right_capacity := hseen.filled.capacity_eq
      right_peak := hseen.filled.peak_eq
      out_eq := hchunks ▸ hseen.out_eq
      leftBlocks_eq := hseen.leftBlocks_eq
      rightBlocks_eq := hchunks ▸ hseen.rightBlocks_eq }
  · have hchunks := hseen.filled.chunks_of_rest hnone
    simp only [hnone, if_false, Bool.false_eq_true]
    exact {
      left_eq := congrArg Block.reset hseen.left_eq
      right_empty := rfl
      right_capacity := hseen.filled.capacity_eq
      right_peak := hseen.filled.peak_eq
      out_eq := hchunks ▸ hseen.out_joinBlocks
      leftBlocks_eq := hseen.leftBlocks_eq
      rightBlocks_eq := hchunks ▸ hseen.rightBlocks_joinBlocks }

/-! ## The left side -/

/-- Between two passes, when all left pieces so far are joined with the right side, which went through
the right block `block`. -/
structure Joined (p : Predicate) (schema : Schema) (block : Block Row) (right : List Row)
    (pieces : List (List Row)) (run : BlockRun) : Prop where
  /-- The right block is empty. -/
  right_empty : run.right.rows = #[]
  /-- The right block keeps its size. -/
  right_capacity : run.right.capacity = block.capacity
  /-- After the first pass, the right block was as full as it could be. -/
  right_peak : run.right.peak.level = if pieces = [] then block.peak.level
    else max block.peak.level (min right.length block.capacity)
  /-- Each left piece is joined with each right chunk. -/
  out_eq : run.out.toList = p.joinPieces schema pieces (chunks block.capacity right)
  /-- There was one pass for each left piece. -/
  leftBlocks_eq : run.leftBlocks = pieces.length
  /-- Each right chunk came once in each pass. -/
  rightBlocks_eq : run.rightBlocks = pieces.length * (chunks block.capacity right).length

namespace Joined

variable {run : BlockRun} {block : Block Row} {right : List Row} {pieces : List (List Row)}

/-- A pass joins one more left piece. -/
theorem pass (h : Joined p schema block right pieces run) (hcapacity : 0 < block.capacity) :
    ∃ run', run.drainRightAnswer p schema ⟨right, none⟩ = .ok run' ∧
      run'.left = run.left.reset ∧
      Joined p schema block right (pieces ++ [run.left.rows.toList]) run' := by
  obtain ⟨run', hrun', hpassed⟩ :=
    drainRight_passed p schema run right h.right_empty (h.right_capacity ▸ hcapacity)
  refine ⟨run', hrun', hpassed.left_eq, ?_⟩
  have hlength : (pieces ++ [run.left.rows.toList]).length = pieces.length + 1 := by simp
  exact {
    right_empty := hpassed.right_empty
    right_capacity := hpassed.right_capacity.trans h.right_capacity
    right_peak := by
      have hne : pieces ++ [run.left.rows.toList] ≠ [] := List.append_ne_nil_of_right_ne_nil _ nofun
      rw [hpassed.right_peak, h.right_peak, h.right_capacity, if_neg hne]
      by_cases hfirst : pieces = []
      · rw [if_pos hfirst]
      · rw [if_neg hfirst, Nat.max_assoc, Nat.max_self]
    out_eq := by
      rw [hpassed.out_eq, h.out_eq, h.right_capacity]
      unfold Predicate.joinPieces
      rw [List.flatMap_append, List.flatMap_singleton]
    leftBlocks_eq := by rw [hpassed.leftBlocks_eq, h.leftBlocks_eq, hlength]
    rightBlocks_eq := by
      rw [hpassed.rightBlocks_eq, h.rightBlocks_eq, h.right_capacity, hlength, Nat.succ_mul] }

/-- One more left row goes into the block; if that is full then, it is joined. -/
theorem push (h : Joined p schema block right pieces run) (hcapacity : 0 < block.capacity)
    {leftBlock : Block Row} {rows : List Row} (hfilled : leftBlock.Filled rows pieces run.left)
    (row : Row) :
    ∃ run', run.pushLeftAnswer p schema ⟨right, none⟩ row = .ok run' ∧
      ∃ pieces', leftBlock.Filled (rows ++ [row]) pieces' run'.left ∧
        Joined p schema block right pieces' run' := by
  let pushed : BlockRun := { run with left := run.left.append row }
  have hpushed : run.pushLeftAnswer p schema ⟨right, none⟩ row =
      if pushed.left.isFull then pushed.drainRightAnswer p schema ⟨right, none⟩ else .ok pushed := by
    unfold BlockRun.pushLeftAnswer
    rw [hfilled.push_eq row]
    rfl
  -- the left block has no part in what is joined
  have hjoined : Joined p schema block right pieces pushed := ⟨h.right_empty, h.right_capacity,
    h.right_peak, h.out_eq, h.leftBlocks_eq, h.rightBlocks_eq⟩
  rw [hpushed]
  cases hfull : pushed.left.isFull with
  | true =>
    obtain ⟨run', hrun', hleft, hjoined'⟩ := hjoined.pass hcapacity
    refine ⟨run', by rw [if_pos rfl, hrun'], _, ?_, hjoined'⟩
    rw [hleft]
    exact hfilled.push_full hfull
  | false =>
    refine ⟨pushed, by rw [if_neg Bool.false_ne_true], pieces, ?_, hjoined⟩
    exact hfilled.push hfull

end Joined

end BlockRun

/-! ## The whole join -/

/-- What a join by these blocks does with so many left and right rows. -/
def blockStats (leftBlock rightBlock : Block Row) (left right : Nat) : BlockStats where
  leftBlockRows := leftBlock.capacity
  rightBlockRows := rightBlock.capacity
  peakLeftRows := max leftBlock.peak.level (min left leftBlock.capacity)
  peakRightRows := if left = 0 then rightBlock.peak.level
    else max rightBlock.peak.level (min right rightBlock.capacity)
  leftBlocks := left ⌈/⌉ leftBlock.capacity
  rightBlocks := (left ⌈/⌉ leftBlock.capacity) * (right ⌈/⌉ rightBlock.capacity)
  rightScans := left ⌈/⌉ leftBlock.capacity

section Whole

variable {leftBlock rightBlock : Block Row} {left right : List Row}

/-- When all left chunks are joined, the join is done. -/
theorem stats_of_joined {run : BlockRun} (hlc : 0 < leftBlock.capacity)
    (hrc : 0 < rightBlock.capacity) (hcapacity : run.left.capacity = leftBlock.capacity)
    (hpeak : run.left.peak.level = max leftBlock.peak.level (min left.length leftBlock.capacity))
    (h : BlockRun.Joined p schema rightBlock right (chunks leftBlock.capacity left) run) :
    run.stats = blockStats leftBlock rightBlock left.length right.length := by
  have hempty : chunks leftBlock.capacity left = [] ↔ left.length = 0 := by
    rw [List.length_eq_zero_iff]
    constructor
    · intro hnil
      rw [← flatten_chunks leftBlock.capacity left, hnil, List.flatten_nil]
    · rintro rfl
      exact chunks_nil _
  unfold BlockRun.stats blockStats
  rw [hcapacity, hpeak, h.right_capacity, h.right_peak, h.leftBlocks_eq, h.rightBlocks_eq,
    length_chunks hlc, length_chunks hrc]
  simp only [hempty]

/-- What the join by blocks finds, and what it did: the left chunks are joined with the right chunks in
turn, and the counts are those of the chunks. -/
theorem blockNestedLoopAnswer_eq (p : Predicate) (schema : Schema) (left right : List Row)
    (hleft : leftBlock.rows = #[]) (hright : rightBlock.rows = #[]) (hlc : 0 < leftBlock.capacity)
    (hrc : 0 < rightBlock.capacity) :
    blockNestedLoopAnswer p schema leftBlock rightBlock ⟨left, none⟩ ⟨right, none⟩ =
      .ok (p.joinPieces schema (chunks leftBlock.capacity left) (chunks rightBlock.capacity right),
        blockStats leftBlock rightBlock left.length right.length) := by
  let start : BlockRun := { left := leftBlock, right := rightBlock }
  have hstart : ∃ pieces, leftBlock.Filled [] pieces start.left ∧
      BlockRun.Joined p schema rightBlock right pieces start :=
    ⟨[], .nil hleft hlc, hright, rfl, rfl, rfl, rfl, (Nat.zero_mul _).symm⟩
  obtain ⟨last, hlast, pieces, hfilled, hjoined⟩ := Script.foldM_induct
    (I := fun rows run => ∃ pieces, leftBlock.Filled rows pieces run.left ∧
      BlockRun.Joined p schema rightBlock right pieces run)
    (fun rows run row ⟨pieces, hfilled, h⟩ => h.push hrc hfilled row) left hstart
  unfold blockNestedLoopAnswer
  rw [hlast]
  -- what is left in the left block is the last chunk
  by_cases hnone : last.left.rows.isEmpty
  · have hdone := hfilled.chunks_of_empty hnone ▸ hjoined
    rw [← hdone.out_eq, ← stats_of_joined hlc hrc hfilled.capacity_eq hfilled.peak_eq hdone]
    simp [hnone, bind, Except.bind, pure, Except.pure]
  · obtain ⟨run, hrun, hreset, hjoined'⟩ := hjoined.pass hrc
    have hdone := hfilled.chunks_of_rest hnone ▸ hjoined'
    have hcapacity : run.left.capacity = leftBlock.capacity := by
      rw [hreset]
      exact hfilled.capacity_eq
    have hpeak : run.left.peak.level =
        max leftBlock.peak.level (min left.length leftBlock.capacity) := by
      rw [hreset]
      exact hfilled.peak_eq
    rw [← hdone.out_eq, ← stats_of_joined hlc hrc hcapacity hpeak hdone]
    simp [hnone, hrun, bind, Except.bind, pure, Except.pure]

/-- Reading both sides to their end, block by block, finds the rows of the join in some order. -/
theorem blockNestedLoop_perm (p : Predicate) (schema : Schema) (left right : List Row)
    (hleft : leftBlock.rows = #[]) (hright : rightBlock.rows = #[]) (hlc : 0 < leftBlock.capacity)
    (hrc : 0 < rightBlock.capacity) :
    ∃ rows stats, blockNestedLoopAnswer p schema leftBlock rightBlock ⟨left, none⟩ ⟨right, none⟩ =
        .ok (rows, stats) ∧ rows.Perm (p.join schema left right) := by
  refine ⟨_, _, blockNestedLoopAnswer_eq p schema left right hleft hright hlc hrc, ?_⟩
  have hperm := p.joinPieces_perm schema (chunks leftBlock.capacity left)
    (chunks rightBlock.capacity right)
  rwa [flatten_chunks, flatten_chunks] at hperm

end Whole

end Join

end RowStream
