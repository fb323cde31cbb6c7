import Mathlib.Algebra.Order.Group.Abs
import Mathlib.Data.List.Induction
import RowStream.Proofs.Aggregate.Batch

/-!
# `RowStream.Proofs.Aggregate.Mean` — machine words are enough for a mean

The count and the sum of a mean are numbers without a bound here. A machine keeps them in 64 and 128
bits, whose arithmetic goes round, and of the quotient it keeps 64 bits. Nothing of that ever shows:
each cell moves the sum by at most `2 ^ 63`, so fewer than `2 ^ 63` cells leave it far inside the
128-bit integers, and the mean lies between the least and the greatest cell.

## Contents
- `Averages`, `averages_of_knows` — the bounds on count and sum, from what the accumulator knows.
- `MeanWords`, `MeanWords.Holds` — the state in machine words, and what it holds.
- `Holds.merge`, `Holds.value_eq` — one more cell, and the answer.
- `mean_exact` — any cells.
-/

namespace RowStream

open Accumulator

/-! ## Bounds -/

/-- A mean that has `n` cells of the sum `total` took these cells, and no number left its range on the
way. -/
structure Averages (cells : List (Option Int64)) (n : Nat) (total : Int) : Prop where
  /-- The count is that of the cells that are present. -/
  count_eq : n = (present cells).length
  /-- The sum is theirs. -/
  total_eq : total = (present cells).sum
  /-- The count is a 64-bit integer. -/
  count_lt : n < 2 ^ 63
  /-- Each cell moves the sum by at most `2 ^ 63`. -/
  total_le : |total| ≤ n * 2 ^ 63
  /-- Before, between and after the cells, the sum was strictly inside the 128-bit integers. -/
  stays : ∀ first, first <+: cells → |(present first).sum| < 2 ^ 127

/-- The absolute sum of 64-bit integers is at most `2 ^ 63` for each of them. -/
theorem abs_sum_le (cells : List (Option Int64)) :
    |(present cells).sum| ≤ (present cells).length * 2 ^ 63 := by
  have hmin : Int64.minValue.toInt = -2 ^ 63 := by decide
  have hmax : Int64.maxValue.toInt = 2 ^ 63 - 1 := by decide
  have hcells : ∀ i ∈ present cells, -2 ^ 63 ≤ i ∧ i ≤ 2 ^ 63 := by
    intro i hi
    obtain ⟨hlow, hhigh⟩ := inRange_of_mem_present hi
    omega
  obtain ⟨hlow, hhigh⟩ := sum_between_mul hcells
  rw [abs_le]
  omega

theorem length_present_le (cells : List (Option Int64)) :
    (present cells).length ≤ cells.length := List.length_filterMap_le _ _

/-- The absolute sum of fewer than `2 ^ 63` cells. -/
theorem abs_sum_lt {cells : List (Option Int64)} (hfew : cells.length < 2 ^ 63) :
    |(present cells).sum| < 2 ^ 127 := by
  have hle := abs_sum_le cells
  have hcount := length_present_le cells
  omega

/-- What an accumulator knows of fewer than `2 ^ 63` cells keeps its numbers in their ranges. -/
theorem averages_of_knows {cells : List (Option Int64)} {n : Nat} {total : Int}
    (h : (avg n total).Knows cells) (hfew : cells.length < 2 ^ 63) : Averages cells n total := by
  obtain ⟨rfl, rfl⟩ := h
  refine ⟨rfl, rfl, ?_, abs_sum_le cells, ?_⟩
  · exact Nat.lt_of_le_of_lt (length_present_le cells) hfew
  · intro first hfirst
    exact abs_sum_lt (Nat.lt_of_le_of_lt hfirst.length_le hfew)

/-! ## Machine words -/

/-- The state of a mean in machine words. -/
structure MeanWords where
  /-- The number of the cells so far. -/
  count : Int64 := 0
  /-- The sum of the cells so far. -/
  total : BitVec 128 := 0
  deriving DecidableEq, Repr

namespace MeanWords

/-- Takes one more cell, with additions that go round. -/
def merge (m : MeanWords) : Option Int64 → MeanWords
  | none => m
  | some i => { count := m.count + 1, total := m.total + i.toBitVec.signExtend 128 }

/-- The mean: a quotient of 128 bits, of which the lower half is kept. -/
def value (m : MeanWords) : Option Int64 :=
  if m.count = 0 then none
  else some (Int64.ofBitVec ((m.total.sdiv (m.count.toBitVec.signExtend 128)).setWidth 64))

/-- The words hold the count and the sum. -/
structure Holds (m : MeanWords) (n : Nat) (total : Int) : Prop where
  /-- The word of the count. -/
  count_eq : m.count.toInt = n
  /-- The word of the sum. -/
  total_eq : m.total.toInt = total

variable {m : MeanWords} {n : Nat} {total : Int}

theorem holds_nothing : Holds {} 0 0 := ⟨rfl, rfl⟩

/-- A cell goes into both words while the count and the sum that it makes are in range. -/
theorem Holds.merge (h : m.Holds n total) {i : Int64} (hcount : n + 1 < 2 ^ 63)
    (htotal : |total + i.toInt| < 2 ^ 127) :
    (m.merge (some i)).Holds (n + 1) (total + i.toInt) := by
  rw [abs_lt] at htotal
  constructor
  · show (m.count + 1).toInt = _
    rw [Int64.toInt_add, h.count_eq, Int64.toInt_one]
    apply Int.bmod_eq_of_le <;> omega
  · show (m.total + i.toBitVec.signExtend 128).toInt = _
    rw [BitVec.toInt_add, h.total_eq, BitVec.toInt_signExtend_of_le (by decide),
      Int64.toInt_toBitVec]
    apply Int.bmod_eq_of_le <;> omega

/-- A word of 128 bits that holds a 64-bit integer is not changed by keeping its lower half. -/
theorem toInt_setWidth_of_inRange {w : BitVec 128} (h : InRange w.toInt) :
    (w.setWidth 64).toInt = w.toInt := by
  have hmin : Int64.minValue.toInt = -2 ^ 63 := by decide
  have hmax : Int64.maxValue.toInt = 2 ^ 63 - 1 := by decide
  obtain ⟨hlow, hhigh⟩ := h
  have hword := BitVec.toInt_eq_toNat_cond w
  rw [BitVec.toInt_setWidth, Int.bmod_def]
  split at hword <;> omega

/-- The answer of the words is that of the accumulator. -/
theorem Holds.value_eq (h : m.Holds n total) {cells : List (Option Int64)}
    (haverages : Averages cells n total) : m.value = (avg n total).value := by
  have hzero : m.count = 0 ↔ n = 0 := by
    rw [← Int64.toInt_inj, h.count_eq, Int64.toInt_zero]
    omega
  unfold value
  cases n with
  | zero => rw [if_pos (hzero.2 rfl), Accumulator.value]
  | succ n =>
    rw [if_neg (fun hcount => Nat.succ_ne_zero n (hzero.1 hcount))]
    have hne : present cells ≠ [] := by
      intro hnil
      have := haverages.count_eq
      rw [hnil] at this
      cases this
    have hmean : InRange (total.tdiv ((n + 1 : Nat) : Int)) := by
      rw [haverages.count_eq, haverages.total_eq]
      exact mean_between hne fun i hi => inRange_of_mem_present hi
    -- the quotient does not go round, since it is that of integers and lies in range
    have hquotient : (m.total.sdiv (m.count.toBitVec.signExtend 128)).toInt =
        total.tdiv ((n + 1 : Nat) : Int) := by
      have hmin : Int64.minValue.toInt = -2 ^ 63 := by decide
      have hmax : Int64.maxValue.toInt = 2 ^ 63 - 1 := by decide
      obtain ⟨hlow, hhigh⟩ := hmean
      rw [BitVec.toInt_sdiv, h.total_eq, BitVec.toInt_signExtend_of_le (by decide),
        Int64.toInt_toBitVec, h.count_eq]
      apply Int.bmod_eq_of_le <;> omega
    show some _ = some (Int64.ofInt (total.tdiv ((n + 1 : Nat) : Int)))
    rw [Option.some.injEq, ← Int64.toInt_inj, Int64.toInt_ofBitVec, toInt_ofInt_of_inRange hmean,
      toInt_setWidth_of_inRange (by rwa [hquotient]), hquotient]

end MeanWords

/-! ## Any cells -/

/-- A mean takes any cells, fewer than `2 ^ 63`, and the words hold it. -/
theorem mean_run {cells : List (Option Int64)} (hfew : cells.length < 2 ^ 63) :
    ∃ n total, cells.foldlM merge (empty .avg) = .ok (avg n total) ∧ (avg n total).Knows cells ∧
      (cells.foldl MeanWords.merge {}).Holds n total := by
  induction cells using List.reverseRecOn with
  | nil => exact ⟨0, 0, rfl, ⟨rfl, rfl⟩, MeanWords.holds_nothing⟩
  | append_singleton cells cell ih =>
    have hlength : cells.length + 1 < 2 ^ 63 := by simpa using hfew
    obtain ⟨n, total, hrun, hknows, hholds⟩ := ih (by omega)
    rw [List.foldlM_append, hrun, List.foldl_append]
    cases cell with
    | none => exact ⟨n, total, rfl, (knows_merge hknows rfl).2, hholds⟩
    | some i =>
      have hnext : (avg (n + 1) (total + i.toInt)).Knows (cells ++ [some i]) :=
        (knows_merge hknows rfl).2
      have haverages := averages_of_knows hnext hfew
      refine ⟨n + 1, total + i.toInt, rfl, hnext, hholds.merge haverages.count_lt ?_⟩
      rw [haverages.total_eq]
      exact haverages.stays _ (List.prefix_refl _)

/-- A mean takes any cells, fewer than `2 ^ 63`, and none of its numbers leaves its range: the count
stays in 64 bits, and the sum in 128 bits, so that the state in machine words holds the same numbers
and gives the same answer. Where a cell is present, the answer is the quotient of sum and count, cut
toward zero, without a loss of bits, and lies between the least and the greatest cell. -/
theorem mean_exact {cells : List (Option Int64)} (hfew : cells.length < 2 ^ 63) :
    ∃ n total, cells.foldlM merge (empty .avg) = .ok (avg n total) ∧ Averages cells n total ∧
      (cells.foldl MeanWords.merge {}).Holds n total ∧
      (cells.foldl MeanWords.merge {}).value = (avg n total).value ∧
      (present cells = [] → (avg n total).value = none) ∧
      (present cells ≠ [] → ∃ mean least greatest, (avg n total).value = some mean ∧
        mean.toInt = (present cells).sum.tdiv (present cells).length ∧
        (present cells).min? = some least ∧ (present cells).max? = some greatest ∧
        least ≤ mean.toInt ∧ mean.toInt ≤ greatest) := by
  obtain ⟨n, total, hrun, hknows, hholds⟩ := mean_run hfew
  have haverages := averages_of_knows hknows hfew
  have hvalue : (avg n total).value.map Int64.toInt =
      AggregateFn.reduce .avg cells.length (present cells) := value_of_knows hknows hfew
  refine ⟨n, total, hrun, haverages, hholds, hholds.value_eq haverages, ?_, ?_⟩
  · intro hnil
    simpa [AggregateFn.reduce, hnil] using hvalue
  · intro hne
    simp only [AggregateFn.reduce, if_neg hne] at hvalue
    obtain ⟨mean, hmean, hquotient⟩ := Option.map_eq_some_iff.1 hvalue
    obtain ⟨least, hleast⟩ := Option.isSome_iff_exists.1 (List.isSome_min?_of_ne_nil hne)
    obtain ⟨greatest, hgreatest⟩ := Option.isSome_iff_exists.1 (List.isSome_max?_of_ne_nil hne)
    have hbetween := mean_between hne fun i hi =>
      ⟨(List.min?_eq_some_iff.1 hleast).2 i hi, (List.max?_eq_some_iff.1 hgreatest).2 i hi⟩
    rw [← hquotient] at hbetween
    exact ⟨mean, least, greatest, hmean, hquotient, hleast, hgreatest, hbetween⟩

/-- Two of the least integers, whose sum takes 65 bits, an absent cell, and a one that the cut toward
zero loses. -/
theorem mean_exact_of_least :
    let cells := [some Int64.minValue, none, some Int64.minValue, some 1]
    cells.length < 2 ^ 63 ∧ ∃ n total, cells.foldlM merge (empty .avg) = .ok (avg n total) ∧
      n = 3 ∧ total = 1 - 2 ^ 64 ∧ (cells.foldl MeanWords.merge {}).value = (avg n total).value ∧
      ∃ mean, (avg n total).value = some mean ∧ mean.toInt = -6148914691236517205 := by
  intro cells
  have hfew : cells.length < 2 ^ 63 := by decide
  obtain ⟨n, total, hrun, haverages, -, hwords, -, hmean⟩ := mean_exact hfew
  obtain ⟨mean, -, -, hvalue, hquotient, -⟩ := hmean (by decide)
  refine ⟨hfew, n, total, hrun, ?_, ?_, hwords, mean, hvalue, ?_⟩
  · rw [haverages.count_eq]
    decide
  · rw [haverages.total_eq]
    decide
  · rw [hquotient]
    decide

end RowStream
