import RowStream.Proofs.Join.Profile
import RowStream.Proofs.Join.Strategies
import RowStream.Proofs.Stream.Columns

/-!
# `RowStream.Proofs.Join.Blockwise` — the join by blocks, row by row and count by count

Of the two sides no more is known than that each gives the same rows after every rewind. The join by
blocks then gives the rows of the plain loop over the chunks of both sides, in the order of that loop,
and what it says of its blocks is what the numbers of rows, their widths and the size of the buffer
say. A join finds its rows when it is opened and when it is rewound, and reports on that each time.

## Contents
- `Block.Fresh` — a block as it is made.
- `BlockStats.ofRows` — what is done with so many rows.
- `blockNestedLoop_chunks` — the rows, in their order.
- `Join.Blockwise` — a join by blocks whose sides give the same rows again and again.
- `compute_blockwise`, `Join.started`, `Join.sentBack` — finding the rows, and when that is done.
- `stats_of_blockwise` — what a join reports.
-/

namespace RowStream

open Call

/-- A block as it is made, with room for `n` rows. -/
structure Block.Fresh {α : Type} (n : Nat) (b : Block α) : Prop where
  /-- No row is in it. -/
  rows_eq : b.rows = #[]
  /-- None ever was. -/
  peak_eq : b.peak.level = 0
  /-- It has room for `n` rows. -/
  capacity_eq : b.capacity = n
  /-- That is at least one. -/
  pos : 0 < n

theorem Block.fresh_of_make {α : Type} {budget budget' : Budget} {block row : Nat} {tag : String}
    {b : Block α} (h : Block.make budget block row tag = .ok (b, budget')) :
    b.Fresh (Block.rowsFor block row) := by
  obtain ⟨hne, r, -, rfl⟩ := Block.make_eq_ok_iff.1 h
  exact ⟨rfl, rfl, rfl, Nat.pos_of_ne_zero hne⟩

/-- What a join by fresh blocks of `cl` and `cr` rows does with `n` left and `m` right rows. -/
def BlockStats.ofRows (cl cr n m : Nat) : BlockStats where
  leftBlockRows := cl
  rightBlockRows := cr
  peakLeftRows := min n cl
  peakRightRows := if n = 0 then 0 else min m cr
  leftBlocks := n ⌈/⌉ cl
  rightBlocks := (n ⌈/⌉ cl) * (m ⌈/⌉ cr)
  rightScans := n ⌈/⌉ cl

namespace Join

variable {σ τ : Type} [Cursor σ] [Cursor τ] {store : PageStore} {left right : List Row}

/-! ## The two blocks -/

theorem blockStats_of_fresh {leftBlock rightBlock : Block Row} {cl cr : Nat}
    (hlb : leftBlock.Fresh cl) (hrb : rightBlock.Fresh cr) (n m : Nat) :
    blockStats leftBlock rightBlock n m = BlockStats.ofRows cl cr n m := by
  unfold blockStats BlockStats.ofRows
  rw [hlb.capacity_eq, hrb.capacity_eq, hlb.peak_eq, hrb.peak_eq, Nat.zero_max, Nat.zero_max]

/-- What the join by fresh blocks finds and does. -/
theorem blockNestedLoop_result {s : σ} {t : τ} (hl : Cursor.Redrains store left s)
    (hr : Cursor.Redrains store right t) (p : Predicate) (schema : Schema)
    {leftBlock rightBlock : Block Row} {cl cr : Nat} (hlb : leftBlock.Fresh cl)
    (hrb : rightBlock.Fresh cr) :
    (blockNestedLoop p schema leftBlock rightBlock store (s, t)).result =
      .ok (p.joinPieces schema (chunks cl left) (chunks cr right),
        BlockStats.ofRows cl cr left.length right.length) := by
  have hcomputes := blockNestedLoop_computes hl.rereads hr.rereads p schema leftBlock rightBlock
  have hlc : 0 < leftBlock.capacity := hlb.capacity_eq ▸ hlb.pos
  have hrc : 0 < rightBlock.capacity := hrb.capacity_eq ▸ hrb.pos
  rw [(hcomputes (s, t) ⟨.refl, .refl⟩).1,
    blockNestedLoopAnswer_eq p schema left right hlb.rows_eq hrb.rows_eq hlc hrc,
    blockStats_of_fresh hlb hrb, hlb.capacity_eq, hrb.capacity_eq]

/-- The join by blocks of any size succeeds, so no block ever refuses a row, and finds, for each chunk
of the left rows in turn, for each chunk of the right rows in turn, for each left row of the one, the
right rows of the other that satisfy the condition with it, each pair as one row. -/
theorem blockNestedLoop_chunks {s : σ} {t : τ} (hl : Cursor.Redrains store left s)
    (hr : Cursor.Redrains store right t) (p : Predicate) (schema : Schema)
    {leftBlock rightBlock : Block Row} {cl cr : Nat} (hlb : leftBlock.Fresh cl)
    (hrb : rightBlock.Fresh cr) :
    ∃ stats, (blockNestedLoop p schema leftBlock rightBlock store (s, t)).result =
      .ok ((chunks cl left).flatMap fun ls => (chunks cr right).flatMap fun rs =>
        ls.flatMap fun l => (rs.filter (p.holds l)).map fun r => l.append r schema, stats) :=
  ⟨_, blockNestedLoop_result hl hr p schema hlb hrb⟩

/-- A block of integers with room for `rows` rows. -/
def freshBlock (rows : Nat) (tag : String) : Block Row where
  capacity := rows
  reservation := { account := 0, bytes := rows * 8, tag }
  tag := tag

/-- Three left rows in blocks of two, and two right rows in blocks of one. -/
theorem blockNestedLoop_chunks_of_columns :
    ∃ stats, (blockNestedLoop ⟨0, .ge, 0⟩ (.ofTypes [.int, .int]) (freshBlock 2 "left")
        (freshBlock 1 "right") (PageStore.empty 64)
        (Stream.openColumn [some 2, some 3, some 4], Stream.openColumn [some 2, some 1])).result =
      .ok ([⟨.ofTypes [.int, .int], [some (.int 2), some (.int 2)], none⟩,
        ⟨.ofTypes [.int, .int], [some (.int 3), some (.int 2)], none⟩,
        ⟨.ofTypes [.int, .int], [some (.int 2), some (.int 1)], none⟩,
        ⟨.ofTypes [.int, .int], [some (.int 3), some (.int 1)], none⟩,
        ⟨.ofTypes [.int, .int], [some (.int 4), some (.int 2)], none⟩,
        ⟨.ofTypes [.int, .int], [some (.int 4), some (.int 1)], none⟩], stats) := by
  have hlb : (freshBlock 2 "left").Fresh 2 := ⟨rfl, rfl, rfl, by decide⟩
  have hrb : (freshBlock 1 "right").Fresh 1 := ⟨rfl, rfl, rfl, by decide⟩
  obtain ⟨stats, hresult⟩ := blockNestedLoop_chunks
    (Stream.redrains_openColumn (PageStore.empty 64) [some 2, some 3, some 4])
    (Stream.redrains_openColumn (PageStore.empty 64) [some 2, some 1]) ⟨0, .ge, 0⟩
    (.ofTypes [.int, .int]) hlb hrb
  have hleft : chunks 2 (Stream.columnRows [some 2, some 3, some 4]) =
      [Stream.columnRows [some 2, some 3], Stream.columnRows [some 4]] := by
    simp [Stream.columnRows, chunks]
  have hright : chunks 1 (Stream.columnRows [some 2, some 1]) =
      [Stream.columnRows [some 2], Stream.columnRows [some 1]] := by
    simp [Stream.columnRows, chunks]
  rw [hleft, hright] at hresult
  exact ⟨stats, hresult⟩

/-! ## Finding the rows of a join -/

/-- A join by blocks whose condition names columns of its sides, and whose sides give the same rows
after every rewind. -/
structure Blockwise (store : PageStore) (left right : List Row) (j : Join σ τ) : Prop where
  /-- The strategy. -/
  strategy_eq : j.strategy = .blockNestedLoop
  /-- The columns of the condition exist. -/
  fields : checkFields j.predicate (Cursor.schema j.left) (Cursor.schema j.right) = .ok ()
  /-- The rows of the left side. -/
  left_redrains : Cursor.Redrains store left j.left
  /-- The rows of the right side. -/
  right_redrains : Cursor.Redrains store right j.right

/-- The rows of the left side that fit the buffer. -/
def leftRoom (j : Join σ τ) : Nat := j.bufferBytes / (Cursor.schema j.left).byteSize

/-- The rows of the right side that fit the buffer. -/
def rightRoom (j : Join σ τ) : Nat := j.bufferBytes / (Cursor.schema j.right).byteSize

/-- Where rows have a width, these are the rows that a block of the full buffer has room for. -/
theorem rowsFor_eq_room {j : Join σ τ}
    (hfields : checkFields j.predicate (Cursor.schema j.left) (Cursor.schema j.right) = .ok ()) :
    Block.rowsFor j.bufferBytes (Cursor.schema j.left).byteSize = j.leftRoom ∧
      Block.rowsFor j.bufferBytes (Cursor.schema j.right).byteSize = j.rightRoom := by
  obtain ⟨hlpos, hrpos⟩ := byteSize_pos_of_checkFields hfields
  unfold Block.rowsFor leftRoom rightRoom
  rw [Nat.max_eq_left hlpos, Nat.max_eq_left hrpos]
  exact ⟨rfl, rfl⟩

omit [Cursor σ] [Cursor τ] in
/-- Where the account grants a block, it is fresh, and the rest of the join stays. -/
theorem makeBlock_fresh (rowBytes : Nat) (tag : String) (j : Join σ τ) :
    Triple store (· = j) (makeBlock rowBytes tag)
      (fun block j' => block.Fresh (Block.rowsFor j.bufferBytes rowBytes) ∧ j'.left = j.left ∧
        j'.right = j.right ∧ j'.bufferBytes = j.bufferBytes)
      (fun _ _ => True) := by
  refine makeBlock_triple ?_ ?_
  · rintro _ block budget rfl hmade
    exact ⟨Block.fresh_of_make hmade, rfl, rfl, rfl⟩
  · intro _ _ _ _
    trivial

/-- Finding the rows by blocks gives the rows of the chunks and notes what was done. -/
theorem computeByBlocks_blockwise {j : Join σ τ} (h : Blockwise store left right j) :
    Triple store (· = j) computeByBlocks
      (fun rows j' => rows = j.predicate.joinPieces j.schema (chunks j.leftRoom left)
          (chunks j.rightRoom right) ∧
        j'.stats = some (BlockStats.ofRows j.leftRoom j.rightRoom left.length right.length))
      (fun _ _ => True) := by
  obtain ⟨hleft, hright⟩ := rowsFor_eq_room h.fields
  refine Triple.getBindAt ?_
  refine Triple.bind (makeBlock_fresh _ _ j) fun leftBlock => Triple.ensuring (Triple.each ?_)
  rintro j₁ ⟨hlb, hl₁, hr₁, hbuffer⟩
  rw [hleft] at hlb
  refine Triple.bind (makeBlock_fresh _ _ j₁) fun rightBlock => Triple.ensuring (Triple.each ?_)
  rintro j₂ ⟨hrb, hl₂, hr₂, -⟩
  rw [hbuffer, hright] at hrb
  -- giving the blocks back changes neither the rows nor what was noted
  refine Triple.bind (R := fun found _ => found =
    (j.predicate.joinPieces j.schema (chunks j.leftRoom left) (chunks j.rightRoom right),
      BlockStats.ofRows j.leftRoom j.rightRoom left.length right.length)) (Triple.zoom ?_) ?_
  · rintro _ rfl
    rw [hl₂, hl₁, hr₂, hr₁]
    rintro _ rfl
    rw [blockNestedLoop_result h.left_redrains h.right_redrains j.predicate j.schema hlb hrb]
  · rintro ⟨rows, stats⟩
    refine Triple.bind (R := fun _ j' => rows = j.predicate.joinPieces j.schema
        (chunks j.leftRoom left) (chunks j.rightRoom right) ∧
      j'.stats = some (BlockStats.ofRows j.leftRoom j.rightRoom left.length right.length))
      (Triple.modify ?_) ?_
    · intro _ hfound
      obtain ⟨hrows, hstats⟩ := Prod.mk.inj hfound
      exact ⟨hrows, congrArg some hstats⟩
    · exact fun _ => Triple.pure fun _ hdone => hdone

/-- Finding the rows, by the strategy of the join. -/
theorem compute_blockwise [Sorting] {j : Join σ τ} (h : Blockwise store left right j)
    {rows : List Row} (hok : (compute store j).result = .ok rows) :
    rows = j.predicate.joinPieces j.schema (chunks j.leftRoom left) (chunks j.rightRoom right) ∧
      (compute store j).state.stats =
        some (BlockStats.ofRows j.leftRoom j.rightRoom left.length right.length) := by
  have hcompute : compute store j = computeByBlocks store j := by
    unfold compute
    rw [bind_of_ok (c := Call.get) (a := j) rfl, h.strategy_eq]
    rfl
  rw [hcompute] at hok ⊢
  exact (computeByBlocks_blockwise h).of_ok rfl hok

/-! ## Opening and rewinding -/

/-- The join when both sides are opened. -/
def started (store : PageStore) (j : Join σ τ) : Join σ τ :=
  { j with
    left := (Cursor.start store j.left).state
    right := (Cursor.start store j.right).state }

/-- The join when both sides are rewound. -/
def sentBack (store : PageStore) (j : Join σ τ) : Join σ τ :=
  { j with
    left := (Cursor.rewind store j.left).state
    right := (Cursor.rewind store j.right).state
    pending := none }

/-- Keeping the rows that were found changes nothing that was noted. -/
theorem ok_of_materialize [Sorting] {j : Join σ τ} (h : (materialize store j).result = .ok ()) :
    ∃ rows, (compute store j).result = .ok rows ∧
      (materialize store j).state.stats = (compute store j).state.stats := by
  obtain ⟨rows, hrows, -, hstate⟩ := ok_of_bind h
  obtain ⟨hcompute, heq⟩ := ok_of_onError hrows
  rw [heq] at hstate
  exact ⟨rows, hcompute, (congrArg Join.stats hstate).trans rfl⟩

/-- A join that opens has found its rows when both sides were open. -/
theorem ok_of_start [Sorting] {j : Join σ τ} (h : (start store j).result = .ok ()) :
    ∃ rows, (compute store (j.started store)).result = .ok rows ∧
      (start store j).state.stats = (compute store (j.started store)).state.stats := by
  obtain ⟨_, hget, h, hstate⟩ := ok_of_bind h
  cases hget
  by_cases hopen : j.pending.isSome = true
  · rw [if_pos hopen] at h
    cases h
  · rw [if_neg hopen] at h hstate
    obtain ⟨_, -, h, hleft⟩ := ok_of_bind h
    obtain ⟨_, hright, h, hboth⟩ := ok_of_bind h
    obtain ⟨-, heq⟩ := ok_of_onError hright
    rw [heq] at h hboth
    obtain ⟨rows, hrows, hstats⟩ := ok_of_materialize h
    exact ⟨rows, hrows, (congrArg Join.stats (hstate.trans (hleft.trans hboth))).trans hstats⟩

/-- A join that goes back has found its rows when both sides had gone back. -/
theorem ok_of_rewind [Sorting] {j : Join σ τ} (h : (rewind store j).result = .ok ()) :
    ∃ rows, (compute store (j.sentBack store)).result = .ok rows ∧
      (rewind store j).state.stats = (compute store (j.sentBack store)).state.stats := by
  obtain ⟨_, hget, h, hstate⟩ := ok_of_bind h
  cases hget
  by_cases hclosed : j.pending.isNone = true
  · rw [if_pos hclosed] at h
    cases h
  · rw [if_neg hclosed] at h hstate
    obtain ⟨_, hsides, h, hback⟩ := ok_of_bind h
    obtain ⟨hboth, heq⟩ := ok_of_onError hsides
    rw [heq] at h hback
    obtain ⟨_, -, -, hright⟩ := ok_of_bind hboth
    rw [hright] at h hback
    obtain ⟨_, -, h, hmark⟩ := ok_of_bind h
    obtain ⟨rows, hrows, hstats⟩ := ok_of_materialize h
    exact ⟨rows, hrows, (congrArg Join.stats (hstate.trans (hback.trans hmark))).trans hstats⟩

/-- What a join by blocks reports after it has found its rows: whether it was asked for them, opened or
rewound, the counts are those of the chunks of both sides, and neither block ever held more rows than
fit the buffer. -/
theorem stats_of_blockwise [Sorting] :
    (∀ {j : Join σ τ} {rows : List Row}, Blockwise store left right j →
      (compute store j).result = .ok rows →
      (compute store j).state.stats =
        some (BlockStats.ofRows j.leftRoom j.rightRoom left.length right.length)) ∧
    (∀ {j : Join σ τ}, Blockwise store left right (j.started store) →
      (Cursor.start store j).result = .ok () →
      (Cursor.start store j).state.stats = some (BlockStats.ofRows (j.started store).leftRoom
        (j.started store).rightRoom left.length right.length)) ∧
    (∀ {j : Join σ τ}, Blockwise store left right (j.sentBack store) →
      (Cursor.rewind store j).result = .ok () →
      (Cursor.rewind store j).state.stats = some (BlockStats.ofRows (j.sentBack store).leftRoom
        (j.sentBack store).rightRoom left.length right.length)) ∧
    ∀ cl cr n m, (BlockStats.ofRows cl cr n m).peakLeftRows ≤ cl ∧
      (BlockStats.ofRows cl cr n m).peakRightRows ≤ cr := by
  refine ⟨?_, ?_, ?_, ?_⟩
  · intro j rows h hok
    exact (compute_blockwise h hok).2
  · intro j h hok
    obtain ⟨rows, hrows, hstats⟩ := ok_of_start hok
    exact hstats.trans (compute_blockwise h hrows).2
  · intro j h hok
    obtain ⟨rows, hrows, hstats⟩ := ok_of_rewind hok
    exact hstats.trans (compute_blockwise h hrows).2
  · intro cl cr n m
    refine ⟨Nat.min_le_right n cl, ?_⟩
    show (if n = 0 then 0 else min m cr) ≤ cr
    by_cases hn : n = 0
    · rw [if_pos hn]
      exact Nat.zero_le cr
    · rw [if_neg hn]
      exact Nat.min_le_right m cr

/-- Two columns of integers, joined by blocks of 16 bytes. -/
def byBlocks : Join Materialized Materialized where
  predicate := ⟨0, .eq, 0⟩
  schema := .ofTypes [.int, .int]
  strategy := .blockNestedLoop
  bufferBytes := 16
  budget := { account := 0, capacity := 32 }
  left := Stream.openColumn [some 1, none, some 2]
  right := Stream.openColumn [some 2, some 3]
  pending := some []

/-- Three left rows are two blocks of two, and two right rows are one. -/
theorem stats_of_blockwise_of_columns :
    (Cursor.rewind (PageStore.empty 64) byBlocks).result = .ok () ∧
      (Cursor.rewind (PageStore.empty 64) byBlocks).state.stats =
        some { leftBlockRows := 2, rightBlockRows := 2, peakLeftRows := 2, peakRightRows := 2
               leftBlocks := 2, rightBlocks := 2, rightScans := 2 } := by
  have hblockwise : Blockwise (PageStore.empty 64) (Stream.columnRows [some 1, none, some 2])
      (Stream.columnRows [some 2, some 3]) (byBlocks.sentBack (PageStore.empty 64)) :=
    { strategy_eq := rfl
      fields := rfl
      left_redrains := Stream.redrains_openColumn _ _
      right_redrains := Stream.redrains_openColumn _ _ }
  -- an open column goes back, so the join finds the answer to both of them again
  have hplays : ∀ cells, Cursor.Plays (PageStore.empty 64) (.ofTypes [.int])
      ⟨Stream.columnRows cells, none⟩ (Stream.openColumn cells).profile.shows :=
    fun cells => (Stream.openColumn cells).plays
  have hback : ∀ cells, (Cursor.rewind (PageStore.empty 64) (Stream.openColumn cells)).result =
        .ok () ∧ Cursor.Playing (Stream.openColumn cells).profile.shows
      (Cursor.rewind (PageStore.empty 64) (Stream.openColumn cells)).state :=
    fun cells => ⟨rfl, ⟨Stream.columnRows cells, none⟩, rfl, rfl⟩
  have hrewind := rewind_of_sides (hplays _) (hplays _) (j := byBlocks) ⟨by decide, by decide⟩ rfl
    (hback _) (hback _)
  have hok : (Cursor.rewind (PageStore.empty 64) byBlocks).result = .ok () := by
    cases hres : (Cursor.rewind (PageStore.empty 64) byBlocks).result with
    | ok u => rfl
    | error e =>
      have hanswer := hrewind.of_error rfl hres
      cases hanswer
  exact ⟨hok, (stats_of_blockwise.2.2.1 hblockwise hok).trans (by decide)⟩

end Join

end RowStream
