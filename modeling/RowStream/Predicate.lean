import RowStream.Row
import RowStream.Value.Comparison

/-!
# `RowStream.Predicate` — the condition of a join

## Contents
- `Predicate` — a column of each side and the operator between them.
- `Predicate.holds` — the condition on two rows: an absent cell on either side never satisfies it.
-/

namespace RowStream

/-- The condition `left[leftField] op right[rightField]`. -/
structure Predicate where
  /-- The index of the column on the left side. -/
  leftField : Nat
  /-- The operator. -/
  op : Comparison
  /-- The index of the column on the right side. -/
  rightField : Nat
  deriving DecidableEq, Repr

namespace Predicate

/-- The condition as messages show it. -/
def text (p : Predicate) : String :=
  s!"left[{p.leftField}] {p.op.symbol} right[{p.rightField}]"

/-- Whether the two rows satisfy the condition. -/
def holds (p : Predicate) (left right : Row) : Bool :=
  match left.get? p.leftField, right.get? p.rightField with
  | some v, some w => v.satisfies p.op w
  | _, _ => false

/-- Two rows satisfy the condition exactly when both cells are present and their values do. -/
theorem holds_iff {p : Predicate} {left right : Row} :
    p.holds left right = true ↔
      ∃ v w, left.get? p.leftField = some v ∧ right.get? p.rightField = some w ∧
        v.satisfies p.op w = true := by
  simp only [holds]
  split <;> simp_all

end Predicate

end RowStream
