import RowStream.Proofs.Join.Blocks
import RowStream.Proofs.Join.HashTable
import RowStream.Proofs.Join.SortMerge

/-!
# `RowStream.Proofs.Join.Strategies` — every strategy finds the same rows

On two sides that end, and whose rows conform to their columns, a strategy either finds the rows of
the join, in an order of its own, or cannot be used at all: a table of values does not find ranges,
and a block does not hold rows that are wider than the block.

## Contents
- `nestedLoopAnswer_eq`, `hashAnswer_perm` — the two strategies that go row by row.
- `Refuses` — why a strategy cannot be used.
- `Join.Cramped`, `Join.Stuck` — when there is no room for the blocks, and when a strategy fails.
- `answerByBlocks_cases`, `sortMergeAnswer_perm` — the other two strategies.
- `Join.answer_cases`, `Join.answer_fails_iff` — all strategies: what they find, and when they fail.
-/

namespace RowStream.Join

variable {p : Predicate} {schema : Schema}

/-! ## Row by row -/

theorem scanRightAnswer_eq (right : List Row) (out : Array Row) (l : Row) :
    scanRightAnswer p schema ⟨right, none⟩ out l =
      .ok (out ++ (right.filter (p.holds l)).map (l.append · schema)) := by
  unfold scanRightAnswer
  rw [Script.foldM_pure, Except.ok.injEq]
  induction right generalizing out with
  | nil => simp
  | cons r right ih =>
    rw [List.foldl_cons, ih, List.filter_cons]
    by_cases h : p.holds l r <;> simp [h]

/-- One pass over the right side for every left row finds the rows of the join in their order. -/
theorem nestedLoopAnswer_eq (left right : List Row) :
    nestedLoopAnswer p schema ⟨left, none⟩ ⟨right, none⟩ = .ok (p.join schema left right) := by
  -- what one left row adds to the rows that were found before
  have hstep : ∀ (rows : List Row) (out : Array Row) (l : Row),
      out.toList = p.join schema rows right →
      ∃ out', scanRightAnswer p schema ⟨right, none⟩ out l = .ok out' ∧
        out'.toList = p.join schema (rows ++ [l]) right := by
    intro rows out l h
    refine ⟨_, scanRightAnswer_eq right out l, ?_⟩
    rw [Predicate.join_append_left, ← h]
    simp [Predicate.join]
  obtain ⟨out, hout, hrows⟩ := Script.foldM_induct hstep left (b := #[]) rfl
  unfold nestedLoopAnswer
  rw [hout]
  exact congrArg Except.ok hrows

/-- Looking up the right rows in a table of the left rows finds the rows of the join. -/
theorem hashAnswer_perm (hop : p.op = .eq) (left right : List Row) :
    ∃ rows, hashAnswer p schema ⟨left, none⟩ ⟨right, none⟩ = .ok rows ∧
      rows.Perm (p.join schema left right) :=
  ⟨_, hashAnswer_eq hop left right, lookups_perm hop schema left right⟩

/-! ## By blocks, and sorted -/

/-- Why a strategy cannot be used on rows of the given columns. -/
inductive Refuses (b : Join Unit Unit) (ls rs : Schema) : StreamError → Prop where
  /-- A table of values does not find ranges. -/
  | hash : b.strategy = .hash → b.predicate.op ≠ .eq →
    Refuses b ls rs (.setting (.hashNeedsEquality b.predicate.op))
  /-- A block does not hold a row of one of the sides. -/
  | wide {row : Nat} (tag : String) : b.strategy = .blockNestedLoop →
    row = ls.byteSize ∨ row = rs.byteSize → b.bufferBytes < row →
    Refuses b ls rs (.setting (.rowTooWide tag b.bufferBytes row))

section Stuck

variable {σ τ : Type}

/-- Blocks of rows of these widths do not fit the buffer, or do not fit the account next to the bytes
that others hold. -/
def Cramped (j : Join σ τ) (held left right : Nat) : Prop :=
  j.bufferBytes < left ∨ j.bufferBytes < right ∨
    2 * j.bufferBytes < held + j.bufferBytes / left * left + j.bufferBytes / right * right

/-- One row of a side is wider than the buffer. -/
inductive TooWide (j : Join σ τ) (left right : Nat) : StreamError → Prop where
  /-- It is a row of this width, refused for this block. -/
  | mk {row : Nat} (tag : String) : row = left ∨ row = right → j.bufferBytes < row →
    TooWide j left right (.setting (.rowTooWide tag j.bufferBytes row))

/-- The strategy cannot find the rows of sides of these widths, while others hold so many bytes. -/
def Stuck (j : Join σ τ) (held left right : Nat) : Prop :=
  j.strategy = .hash ∧ j.predicate.op ≠ .eq ∨
    j.strategy = .blockNestedLoop ∧ j.Cramped held left right

/-- While nobody else holds anything, only a row can be too wide. -/
theorem cramped_zero_iff (j : Join σ τ) (left right : Nat) :
    j.Cramped 0 left right ↔ j.bufferBytes < left ∨ j.bufferBytes < right := by
  have hl := Nat.div_mul_le_self j.bufferBytes left
  have hr := Nat.div_mul_le_self j.bufferBytes right
  unfold Cramped
  omega

end Stuck

section Settings

variable {b : Join Unit Unit} {ls rs : Schema} {left right : List Row}

/-- The columns of the condition have types. -/
theorem types_of_checkFields (h : checkFields p ls rs = .ok ()) :
    (∃ type, ls.types[p.leftField]? = some type) ∧ ∃ type, rs.types[p.rightField]? = some type := by
  unfold checkFields at h
  by_cases hl : ls.width ≤ p.leftField
  · simp [hl] at h
  by_cases hr : rs.width ≤ p.rightField
  · simp [hl, hr] at h
  rw [← Schema.length_types] at hl hr
  exact ⟨⟨_, List.getElem?_eq_getElem (Nat.not_le.1 hl)⟩,
    ⟨_, List.getElem?_eq_getElem (Nat.not_le.1 hr)⟩⟩

/-- So every row has a width. -/
theorem byteSize_pos_of_checkFields (h : checkFields p ls rs = .ok ()) :
    0 < ls.byteSize ∧ 0 < rs.byteSize := by
  obtain ⟨⟨_, hl⟩, ⟨_, hr⟩⟩ := types_of_checkFields h
  exact ⟨Schema.byteSize_pos (List.mem_of_getElem? hl), Schema.byteSize_pos (List.mem_of_getElem? hr)⟩

/-- The account of a join that fits its sides has room for two blocks. -/
theorem capacity_of_wellSet (hset : b.WellSet ls rs) : b.budget.capacity = 2 * b.bufferBytes := by
  rw [hset.capacity_eq]
  have hle := hset.buffer_le
  unfold maxJoinBufferBytes at hle
  unfold Word.saturatingMul Word.top Word.limit
  omega

/-- By blocks, the rows of the join are found, unless a row is too wide or others hold too much of the
account. -/
theorem answerByBlocks_cases (hset : b.WellSet ls rs) (left right : List Row) :
    (¬ b.Cramped b.budget.used ls.byteSize rs.byteSize ∧
      ∃ rows, b.answerByBlocks ls rs ⟨left, none⟩ ⟨right, none⟩ = .ok rows ∧
        rows.Perm (b.predicate.join b.schema left right)) ∨
      (b.Cramped b.budget.used ls.byteSize rs.byteSize ∧
        ∃ e, b.answerByBlocks ls rs ⟨left, none⟩ ⟨right, none⟩ = .error e ∧
          (b.budget.used = 0 → b.TooWide ls.byteSize rs.byteSize e)) := by
  have hcapacity := capacity_of_wellSet hset
  obtain ⟨hlpos, hrpos⟩ := byteSize_pos_of_checkFields hset.fields
  have hlrows := Block.rowsFor_mul_of_pos b.bufferBytes hlpos
  have hrrows := Block.rowsFor_mul_of_pos b.bufferBytes hrpos
  have hlmul := Nat.div_mul_le_self b.bufferBytes ls.byteSize
  have hrmul := Nat.div_mul_le_self b.bufferBytes rs.byteSize
  unfold answerByBlocks answerWithBlock
  -- the left block comes first
  by_cases hl : b.bufferBytes < ls.byteSize
  · refine .inr ⟨.inl hl, _, ?_, fun _ => .mk "join_left_block" (.inl rfl) hl⟩
    rw [Block.make_of_wide _ hset.buffer_pos hl]
    rfl
  by_cases hroom : b.budget.capacity < b.budget.used +
      Block.rowsFor b.bufferBytes ls.byteSize * max ls.byteSize 1
  · obtain ⟨e, he⟩ := Block.make_of_no_room (α := Row) hset.sound "join_left_block" hroom
    refine .inr ⟨.inr (.inr ?_), _, by rw [he], fun hfree => ?_⟩
    · omega
    · omega
  obtain ⟨leftBlock, budget, hmade, hempty, hplace, hsound, hcap, hused⟩ :=
    Block.make_of_fits (α := Row) hset.sound "join_left_block" hset.buffer_pos (Nat.not_lt.1 hl)
      (Nat.not_lt.1 hroom)
  rw [hmade]
  simp only [charged]
  -- then the right one, from what is left
  by_cases hr : b.bufferBytes < rs.byteSize
  · refine .inr ⟨.inr (.inl hr), _, ?_, fun _ => .mk "join_right_block" (.inr rfl) hr⟩
    rw [Block.make_of_wide _ hset.buffer_pos hr]
    rfl
  have hsound' : budget.unmarked.Sound := Budget.sound_unmarked_iff.2 hsound
  have hcap' : budget.unmarked.capacity = b.budget.capacity := hcap
  have hused' : budget.unmarked.used = b.budget.used +
      Block.rowsFor b.bufferBytes ls.byteSize * max ls.byteSize 1 := hused
  by_cases hroom' : budget.unmarked.capacity < budget.unmarked.used +
      Block.rowsFor b.bufferBytes rs.byteSize * max rs.byteSize 1
  · obtain ⟨e, he⟩ := Block.make_of_no_room (α := Row) hsound' "join_right_block" hroom'
    refine .inr ⟨.inr (.inr ?_), _, by rw [he], fun hfree => ?_⟩
    · omega
    · omega
  obtain ⟨rightBlock, budget', hmade', hempty', hplace', -⟩ :=
    Block.make_of_fits (α := Row) hsound' "join_right_block" hset.buffer_pos (Nat.not_lt.1 hr)
      (Nat.not_lt.1 hroom')
  obtain ⟨rows, stats, hrows, hperm⟩ := blockNestedLoop_perm b.predicate b.schema
    left right hempty hempty' hplace hplace'
  refine .inl ⟨?_, rows, ?_, hperm⟩
  · rintro (hwide | hwide | hfull)
    · exact hl hwide
    · exact hr hwide
    · omega
  · rw [hmade']
    simp only [hrows]
    rfl

/-- Sorting both sides always finds something; values of different types are never compared. -/
theorem sortMergeAnswer_eq [Sorting] {lt rt : DataType}
    (hl : ls.types[b.predicate.leftField]? = some lt)
    (hr : rs.types[b.predicate.rightField]? = some rt) :
    sortMergeAnswer b.predicate b.schema ls rs ⟨left, none⟩ ⟨right, none⟩ =
      .ok (if lt = rt then (sortedPairs b.predicate.op (sortRows b.predicate.leftField left)
        (sortRows b.predicate.rightField right)).map fun (l, r) => l.append r b.schema else []) := by
  unfold sortMergeAnswer
  rw [Schema.fieldType_eq_ok_iff.2 hl, Schema.fieldType_eq_ok_iff.2 hr]
  simp only [Call.mapError_ok, bind, Except.bind]
  by_cases htypes : lt = rt
  · rw [if_pos htypes, if_pos htypes]
    rfl
  · rw [if_neg htypes, if_neg htypes]
    rfl

/-- Sorting both sides finds the rows of the join. -/
theorem sortMergeAnswer_perm [Sorting] (hset : b.WellSet ls rs) (hl : ∀ row ∈ left, row.Conforms ls)
    (hr : ∀ row ∈ right, row.Conforms rs) :
    ∃ rows, sortMergeAnswer b.predicate b.schema ls rs ⟨left, none⟩ ⟨right, none⟩ = .ok rows ∧
      rows.Perm (b.predicate.join b.schema left right) := by
  obtain ⟨⟨lt, hlt⟩, ⟨rt, hrt⟩⟩ := types_of_checkFields hset.fields
  refine ⟨_, sortMergeAnswer_eq hlt hrt, ?_⟩
  by_cases htypes : lt = rt
  · subst htypes
    rw [if_pos rfl]
    exact joinRows_perm hl hr hlt hrt (sorted_sortRows _ _) (sortRows_perm _ _)
      (sorted_sortRows _ _) (sortRows_perm _ _)
  · rw [if_neg htypes, join_eq_nil_of_types hl hr hlt hrt htypes]

/-- A table of values does not find ranges. -/
theorem hashAnswer_of_range (hop : b.predicate.op ≠ .eq) (left right : Script) :
    hashAnswer b.predicate b.schema left right =
      .error (.setting (.hashNeedsEquality b.predicate.op)) := by
  unfold hashAnswer
  rw [if_neg hop]
  rfl

/-- Whatever the strategy, it finds the rows of the join, unless it cannot be used. -/
theorem answer_cases [Sorting] (hset : b.WellSet ls rs)
    (hfree : b.strategy = .blockNestedLoop → b.budget.used = 0) (hl : ∀ row ∈ left, row.Conforms ls)
    (hr : ∀ row ∈ right, row.Conforms rs) :
    (∃ rows, b.answer ls rs ⟨left, none⟩ ⟨right, none⟩ = .ok rows ∧
        rows.Perm (b.predicate.join b.schema left right)) ∨
      ∃ e, b.Refuses ls rs e ∧ b.answer ls rs ⟨left, none⟩ ⟨right, none⟩ = .error e := by
  unfold answer
  cases hs : b.strategy with
  | nestedLoop => exact .inl ⟨_, nestedLoopAnswer_eq left right, .rfl⟩
  | blockNestedLoop =>
    rcases answerByBlocks_cases hset left right with
      ⟨-, hfound⟩ | ⟨-, e, he, hwide⟩
    · exact .inl hfound
    · obtain ⟨tag, hrow, hlt⟩ := hwide (hfree hs)
      exact .inr ⟨_, .wide tag hs hrow hlt, he⟩
  | sortMerge => exact .inl (sortMergeAnswer_perm hset hl hr)
  | hash =>
    by_cases hop : b.predicate.op = .eq
    · exact .inl (hashAnswer_perm hop left right)
    · exact .inr ⟨_, .hash hs hop, hashAnswer_of_range hop _ _⟩

/-- On sides that end, a strategy fails exactly if it is stuck, and by blocks, while nobody else holds
anything of the account, it fails for a row that is too wide. Nothing is asked of the rows. -/
theorem answer_fails_iff [Sorting] (hset : b.WellSet ls rs) (left right : List Row) :
    ((∃ e, b.answer ls rs ⟨left, none⟩ ⟨right, none⟩ = .error e) ↔
        b.Stuck b.budget.used ls.byteSize rs.byteSize) ∧
      (b.budget.used = 0 → b.strategy = .blockNestedLoop →
        ∀ e, b.answer ls rs ⟨left, none⟩ ⟨right, none⟩ = .error e →
          b.TooWide ls.byteSize rs.byteSize e) := by
  unfold answer Stuck
  cases hs : b.strategy with
  | nestedLoop =>
    show ((∃ e, nestedLoopAnswer _ _ _ _ = .error e) ↔ _) ∧ _
    rw [nestedLoopAnswer_eq]
    simp
  | blockNestedLoop =>
    rcases answerByBlocks_cases hset left right with
      ⟨hroom, rows, hrows, -⟩ | ⟨hcramped, e, he, hwide⟩
    · simp [hrows, hroom]
    · refine ⟨by simp [he, hcramped], ?_⟩
      intro hfree _ e' he'
      cases he.symm.trans he'
      exact hwide hfree
  | sortMerge =>
    obtain ⟨⟨lt, hlt⟩, ⟨rt, hrt⟩⟩ := types_of_checkFields hset.fields
    show ((∃ e, sortMergeAnswer _ _ _ _ _ _ = .error e) ↔ _) ∧ _
    rw [sortMergeAnswer_eq hlt hrt]
    simp
  | hash =>
    by_cases hop : b.predicate.op = .eq
    · obtain ⟨rows, hrows⟩ : ∃ rows, hashAnswer b.predicate b.schema ⟨left, none⟩ ⟨right, none⟩ =
          .ok rows := (hashAnswer_perm hop left right).imp fun _ => And.left
      simp [hrows, hop]
    · simp [hashAnswer_of_range hop, hop]

end Settings

end RowStream.Join
