import Mathlib.Algebra.Order.BigOperators.Group.List
import Mathlib.Algebra.Order.Group.Int
import Mathlib.Algebra.Ring.Int.Defs
import RowStream.Aggregate.Accumulator

/-!
# `RowStream.Proofs.Aggregate.Accumulate` — what an accumulator knows of the cells it took

An accumulator that took its cells knows something of them that does not depend on their order. Only
whether a sum gets that far does: it must never leave the range of 64-bit integers on the way.

## Contents
- `Accumulator.present` — the numbers in the cells.
- `Accumulator.Knows` — what an accumulator knows of the cells that it took.
- `knows_merge`, `knows_perm`, `eq_of_knows` — it is kept up, does not depend on the order of the
  cells, and tells the accumulator.
- `Accumulator.Fits`, `merge_of_fits` — cells whose sum cannot leave the range in any order.
-/

namespace RowStream.Accumulator

/-- The numbers in the cells that are present. -/
def present (cells : List (Option Int64)) : List Int := cells.filterMap (·.map Int64.toInt)

theorem present_append (cells cells' : List (Option Int64)) :
    present (cells ++ cells') = present cells ++ present cells' := List.filterMap_append

@[simp] theorem present_none (cells : List (Option Int64)) :
    present (cells ++ [none]) = present cells := by
  simp [present]

@[simp] theorem present_some (cells : List (Option Int64)) (i : Int64) :
    present (cells ++ [some i]) = present cells ++ [i.toInt] := by
  simp [present]

/-- The function that an accumulator computes. -/
def fn : Accumulator → AggregateFn
  | count _ => .count
  | sum _ => .sum
  | min _ => .min
  | max _ => .max
  | avg _ _ => .avg

/-- What an accumulator knows of the cells that it took. -/
def Knows (cells : List (Option Int64)) : Accumulator → Prop
  | count rows => rows = cells.length
  | sum none => present cells = []
  | sum (some total) => present cells ≠ [] ∧ total.toInt = (present cells).sum
  | min none => present cells = []
  | min (some least) => least.toInt ∈ present cells ∧ ∀ i ∈ present cells, least.toInt ≤ i
  | max none => present cells = []
  | max (some greatest) => greatest.toInt ∈ present cells ∧ ∀ i ∈ present cells, i ≤ greatest.toInt
  | avg n total => n = (present cells).length ∧ total = (present cells).sum

theorem fn_empty (fn : AggregateFn) : (empty fn).fn = fn := by
  cases fn <;> rfl

/-- At first there were no cells. -/
theorem knows_empty (fn : AggregateFn) : (empty fn).Knows [] := by
  cases fn <;> simp [empty, Knows, present]

/-- What is known of the cells does not depend on their order. -/
theorem knows_perm {cells cells' : List (Option Int64)} (h : cells.Perm cells') {acc : Accumulator}
    (hacc : acc.Knows cells) : acc.Knows cells' := by
  have hpresent : (present cells).Perm (present cells') := h.filterMap _
  match acc with
  | count rows => exact hacc.trans h.length_eq
  | sum none | min none | max none => exact (hacc ▸ hpresent).nil_eq.symm
  | sum (some total) =>
    refine ⟨fun hnil => hacc.1 ?_, hacc.2.trans hpresent.sum_eq⟩
    exact (hnil ▸ hpresent).eq_nil
  | min (some least) =>
    exact ⟨hpresent.subset hacc.1, fun i hi => hacc.2 i (hpresent.symm.subset hi)⟩
  | max (some greatest) =>
    exact ⟨hpresent.subset hacc.1, fun i hi => hacc.2 i (hpresent.symm.subset hi)⟩
  | avg n total => exact ⟨hacc.1.trans hpresent.length_eq, hacc.2.trans hpresent.sum_eq⟩

/-- Two accumulators of one function that know the same cells are the same. -/
theorem eq_of_knows {cells : List (Option Int64)} {acc acc' : Accumulator} (hfn : acc.fn = acc'.fn)
    (h : acc.Knows cells) (h' : acc'.Knows cells) : acc = acc' := by
  match acc, acc', hfn with
  | count rows, count rows', _ => exact congrArg count (h.trans h'.symm)
  | sum none, sum none, _ => rfl
  | sum none, sum (some total), _ => exact absurd h h'.1
  | sum (some total), sum none, _ => exact absurd h' h.1
  | sum (some total), sum (some total'), _ =>
    rw [Int64.toInt_inj.1 (h.2.trans h'.2.symm)]
  | min none, min none, _ => rfl
  | min none, min (some least), _ => exact absurd h (List.ne_nil_of_mem h'.1)
  | min (some least), min none, _ => exact absurd h' (List.ne_nil_of_mem h.1)
  | min (some least), min (some least'), _ =>
    rw [Int64.toInt_inj.1 (Int.le_antisymm (h.2 _ h'.1) (h'.2 _ h.1))]
  | max none, max none, _ => rfl
  | max none, max (some greatest), _ => exact absurd h (List.ne_nil_of_mem h'.1)
  | max (some greatest), max none, _ => exact absurd h' (List.ne_nil_of_mem h.1)
  | max (some greatest), max (some greatest'), _ =>
    rw [Int64.toInt_inj.1 (Int.le_antisymm (h'.2 _ h.1) (h.2 _ h'.1))]
  | avg n total, avg n' total', _ =>
    rw [h.1.trans h'.1.symm, h.2.trans h'.2.symm]

/-- The lesser of the least cell so far and the next one. -/
theorem knows_min {cells : List (Option Int64)} {least : Int64} (h : (min (some least)).Knows cells)
    (i : Int64) : (min (some (if i < least then i else least))).Knows (cells ++ [some i]) := by
  unfold Knows
  rw [present_some]
  by_cases hlt : i < least
  · rw [if_pos hlt]
    refine ⟨by simp, fun k hk => ?_⟩
    have hle := Int.le_of_lt (Int64.lt_iff_toInt_lt.1 hlt)
    rcases List.mem_append.1 hk with hk | hk
    · exact Int.le_trans hle (h.2 k hk)
    · exact Int.le_of_eq (List.mem_singleton.1 hk).symm
  · rw [if_neg hlt]
    refine ⟨List.mem_append_left _ h.1, fun k hk => ?_⟩
    rcases List.mem_append.1 hk with hk | hk
    · exact h.2 k hk
    · rw [List.mem_singleton.1 hk]
      exact Int.not_lt.1 fun hlt' => hlt (Int64.lt_iff_toInt_lt.2 hlt')

/-- The greater of the greatest cell so far and the next one. -/
theorem knows_max {cells : List (Option Int64)} {greatest : Int64}
    (h : (max (some greatest)).Knows cells) (i : Int64) :
    (max (some (if greatest < i then i else greatest))).Knows (cells ++ [some i]) := by
  unfold Knows
  rw [present_some]
  by_cases hlt : greatest < i
  · rw [if_pos hlt]
    refine ⟨by simp, fun k hk => ?_⟩
    have hle := Int.le_of_lt (Int64.lt_iff_toInt_lt.1 hlt)
    rcases List.mem_append.1 hk with hk | hk
    · exact Int.le_trans (h.2 k hk) hle
    · exact Int.le_of_eq (List.mem_singleton.1 hk)
  · rw [if_neg hlt]
    refine ⟨List.mem_append_left _ h.1, fun k hk => ?_⟩
    rcases List.mem_append.1 hk with hk | hk
    · exact h.2 k hk
    · rw [List.mem_singleton.1 hk]
      exact Int.not_lt.1 fun hlt' => hlt (Int64.lt_iff_toInt_lt.2 hlt')

/-- An absent cell counts as a row, and is nothing to the other functions. -/
theorem knows_merge_none {cells : List (Option Int64)} {acc acc' : Accumulator}
    (h : acc.Knows cells) (hmerge : acc.merge none = .ok acc') :
    acc'.fn = acc.fn ∧ acc'.Knows (cells ++ [none]) := by
  cases acc with
  | count rows =>
    cases hmerge
    refine ⟨rfl, ?_⟩
    show rows + 1 = (cells ++ [none]).length
    rw [List.length_append, ← show rows = cells.length from h]
    rfl
  | sum total =>
    cases hmerge
    cases total <;> simpa [Knows] using h
  | min least =>
    cases hmerge
    cases least <;> simpa [Knows] using h
  | max greatest =>
    cases hmerge
    cases greatest <;> simpa [Knows] using h
  | avg n total =>
    cases hmerge
    simpa [Knows] using h

/-- A number goes into what every function computes. -/
theorem knows_merge_some {cells : List (Option Int64)} {acc acc' : Accumulator} {i : Int64}
    (h : acc.Knows cells) (hmerge : acc.merge (some i) = .ok acc') :
    acc'.fn = acc.fn ∧ acc'.Knows (cells ++ [some i]) := by
  match acc with
  | count rows =>
    cases hmerge
    refine ⟨rfl, ?_⟩
    show rows + 1 = (cells ++ [some i]).length
    rw [List.length_append, ← show rows = cells.length from h]
    rfl
  | sum none =>
    cases hmerge
    refine ⟨rfl, ?_⟩
    unfold Knows
    rw [present_some, show present cells = [] from h]
    simp
  | sum (some total) =>
    unfold merge at hmerge
    cases hadd : addChecked? total i with
    | none => simp [hadd] at hmerge
    | some total' =>
      simp only [hadd, Except.ok.injEq] at hmerge
      subst hmerge
      refine ⟨rfl, by simp, ?_⟩
      rw [present_some, List.sum_append, ← h.2, addChecked?_eq_some_iff.1 hadd]
      simp
  | min none =>
    cases hmerge
    refine ⟨rfl, ?_⟩
    show i.toInt ∈ present (cells ++ [some i]) ∧ ∀ k ∈ present (cells ++ [some i]), i.toInt ≤ k
    rw [present_some, show present cells = [] from h]
    simp
  | min (some least) =>
    cases hmerge
    exact ⟨rfl, knows_min h i⟩
  | max none =>
    cases hmerge
    refine ⟨rfl, ?_⟩
    show i.toInt ∈ present (cells ++ [some i]) ∧ ∀ k ∈ present (cells ++ [some i]), k ≤ i.toInt
    rw [present_some, show present cells = [] from h]
    simp
  | max (some greatest) =>
    cases hmerge
    exact ⟨rfl, knows_max h i⟩
  | avg n total =>
    cases hmerge
    refine ⟨rfl, ?_⟩
    unfold Knows
    rw [present_some, h.1, h.2]
    simp

/-- An accumulator that takes one more cell knows that, too. -/
theorem knows_merge {cells : List (Option Int64)} {acc acc' : Accumulator} {cell : Option Int64}
    (h : acc.Knows cells) (hmerge : acc.merge cell = .ok acc') :
    acc'.fn = acc.fn ∧ acc'.Knows (cells ++ [cell]) := by
  cases cell with
  | none => exact knows_merge_none h hmerge
  | some i => exact knows_merge_some h hmerge

/-! ## Sums that stay in range -/

/-- The positive numbers of the cells add up to a 64-bit integer, and so do the negative ones. -/
def Fits (cells : List (Option Int64)) : Prop :=
  ((present cells).filter (0 < ·)).sum ≤ Int64.maxValue.toInt ∧
    Int64.minValue.toInt ≤ ((present cells).filter (· < 0)).sum

/-- No sum of numbers is above that of the positive ones, nor below that of the negative ones. -/
theorem sum_between (l : List Int) :
    (l.filter (· < 0)).sum ≤ l.sum ∧ l.sum ≤ (l.filter (0 < ·)).sum := by
  induction l with
  | nil => simp
  | cons i l ih =>
    rw [List.filter_cons, List.filter_cons, List.sum_cons]
    by_cases hneg : i < 0
    · have hpos : ¬ 0 < i := by omega
      simp only [hneg, hpos, decide_true, decide_false, if_true, Bool.false_eq_true, if_false,
        List.sum_cons]
      omega
    · by_cases hpos : 0 < i
      · simp only [hneg, hpos, decide_true, decide_false, if_true, Bool.false_eq_true, if_false,
          List.sum_cons]
        omega
      · simp only [hneg, hpos, decide_false, Bool.false_eq_true, if_false]
        omega

/-- Cells that come first fit if all do. -/
theorem fits_of_append {cells rest : List (Option Int64)} (h : Fits (cells ++ rest)) : Fits cells := by
  unfold Fits at h ⊢
  rw [present_append, List.filter_append, List.filter_append, List.sum_append, List.sum_append] at h
  have hpos : 0 ≤ ((present rest).filter (0 < ·)).sum :=
    List.sum_nonneg fun i hi => Int.le_of_lt (by simpa using (List.mem_filter.1 hi).2)
  -- the negative numbers of the rest only lower the sum
  have hneg := (sum_between ((present rest).filter (· < 0))).2
  have hnone : ((present rest).filter (· < 0)).filter (0 < ·) = [] := by
    rw [List.filter_eq_nil_iff]
    intro i hi
    have hlt : i < 0 := by simpa using (List.mem_filter.1 hi).2
    simpa using Int.le_of_lt hlt
  rw [hnone, List.sum_nil] at hneg
  omega

/-- Whether cells fit does not depend on their order. -/
theorem fits_perm {cells cells' : List (Option Int64)} (h : cells.Perm cells') (hfits : Fits cells) :
    Fits cells' := by
  have hpresent : (present cells).Perm (present cells') := h.filterMap _
  unfold Fits
  rw [← (hpresent.filter _).sum_eq, ← (hpresent.filter _).sum_eq]
  exact hfits

/-- While the cells fit, no accumulator refuses the next one. -/
theorem merge_of_fits {cells : List (Option Int64)} {acc : Accumulator} {cell : Option Int64}
    (h : acc.Knows cells) (hfits : Fits (cells ++ [cell])) : ∃ acc', acc.merge cell = .ok acc' := by
  cases hmerge : acc.merge cell with
  | ok acc' => exact ⟨acc', rfl⟩
  | error e =>
    -- only a sum can refuse a cell, and this one is in range
    obtain ⟨total, i, rfl, rfl, hadd, -⟩ := merge_eq_error_iff.1 hmerge
    -- the sum lies between those of the negative and of the positive numbers
    have hsum := sum_between (present (cells ++ [some i]))
    unfold Fits at hfits
    rw [present_some, List.sum_append, List.sum_singleton, ← h.2] at hsum
    rw [present_some] at hfits
    unfold addChecked? at hadd
    rw [if_pos ⟨by omega, by omega⟩] at hadd
    cases hadd

/-- Cells that do not fit may add up in one order and not in another. -/
example :
    (List.foldlM merge (sum none) [some Int64.maxValue, some (-1), some 1]).toBool = true ∧
      (List.foldlM merge (sum none) [some Int64.maxValue, some 1, some (-1)]).toBool = false := by
  decide

end RowStream.Accumulator
