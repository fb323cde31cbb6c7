import RowStream.Aggregate.Function
import RowStream.Stream.Error

/-!
# `RowStream.Aggregate.Accumulator` — what an aggregate knows of one group

## Contents
- `addChecked?` — addition of 64-bit integers that fails outside their range.
- `Accumulator`, `Accumulator.empty` — the state of each function, before the first row.
- `Accumulator.merge`, `Accumulator.value` — taking one more cell, and the answer so far.
- `addChecked?_eq_some_iff`, `merge_eq_error_iff` — a sum fails exactly when it leaves the range.
-/

namespace RowStream

/-- The sum of two integers, if it is a 64-bit integer. -/
def addChecked? (i j : Int64) : Option Int64 :=
  let sum := i.toInt + j.toInt
  if Int64.minValue.toInt ≤ sum ∧ sum ≤ Int64.maxValue.toInt then some (Int64.ofInt sum) else none

/-- A checked sum is the sum of the integers. -/
theorem addChecked?_eq_some_iff {i j k : Int64} :
    addChecked? i j = some k ↔ k.toInt = i.toInt + j.toInt := by
  have hmin : Int64.minValue.toInt = -2 ^ 63 := by decide
  have hmax : Int64.maxValue.toInt = 2 ^ 63 - 1 := by decide
  simp only [addChecked?]
  split
  · rename_i h
    rw [Option.some.injEq]
    have hto : (Int64.ofInt (i.toInt + j.toInt)).toInt = i.toInt + j.toInt :=
      Int64.toInt_ofInt_of_le (by omega) (by omega)
    constructor
    · rintro rfl; exact hto
    · intro hk; exact Int64.toInt_inj.1 (hto.trans hk.symm)
  · rename_i h
    have hle := Int64.le_toInt k
    have hlt := Int64.toInt_lt k
    simp only [reduceCtorEq, false_iff]
    omega

/-- What an aggregate function knows of one group. -/
inductive Accumulator where
  /-- The rows so far. -/
  | count (rows : Nat)
  /-- The sum of the cells so far, if there was one. -/
  | sum (total : Option Int64)
  /-- The least cell so far, if there was one. -/
  | min (least : Option Int64)
  /-- The greatest cell so far, if there was one. -/
  | max (greatest : Option Int64)
  /-- The number and the sum of the cells so far. -/
  | avg (cells : Nat) (total : Int)
  deriving DecidableEq, Repr

namespace Accumulator

/-- The state before the first row. -/
def empty : AggregateFn → Accumulator
  | .count => count 0
  | .sum => sum none
  | .avg => avg 0 0
  | .min => min none
  | .max => max none

/-- Takes one more cell. An absent cell counts as a row and is nothing to the other functions. -/
def merge : Accumulator → Option Int64 → Except StreamError Accumulator
  | count rows, _ => .ok (count (rows + 1))
  | acc, none => .ok acc
  | sum none, some i => .ok (sum (some i))
  | sum (some total), some i =>
    match addChecked? total i with
    | some total => .ok (sum (some total))
    | none => .error (.sumOverflow total i)
  | min least, some i => .ok (min (some ((least.map fun m => if i < m then i else m).getD i)))
  | max greatest, some i => .ok (max (some ((greatest.map fun m => if m < i then i else m).getD i)))
  | avg cells total, some i => .ok (avg (cells + 1) (total + i.toInt))

/-- The answer so far; without a cell there is none, but a count. A mean is truncated toward
zero. -/
def value : Accumulator → Option Int64
  | count rows => some (Int64.ofNat rows)
  | sum total => total
  | min least => least
  | max greatest => greatest
  | avg 0 _ => none
  | avg cells total => some (Int64.ofInt (total.tdiv cells))

/-- Only a sum that leaves the range of 64-bit integers is refused. -/
theorem merge_eq_error_iff {acc : Accumulator} {cell : Option Int64} {e : StreamError} :
    acc.merge cell = .error e ↔
      ∃ total i, acc = sum (some total) ∧ cell = some i ∧ addChecked? total i = none ∧
        e = .sumOverflow total i := by
  cases acc with
  | count | min | max | avg => cases cell <;> simp [merge]
  | sum total =>
    cases total with
    | none => cases cell <;> simp [merge]
    | some total =>
      cases cell with
      | none => simp [merge]
      | some i =>
        cases hadd : addChecked? total i <;> simp [merge, hadd, eq_comm]

end Accumulator

end RowStream
