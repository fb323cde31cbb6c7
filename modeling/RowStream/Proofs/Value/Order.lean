import RowStream.Value.Comparison

/-!
# `RowStream.Proofs.Value.Order` — the total order of values, and what operators say of it

## Contents
- The order of all values is total and tells different values apart.
- `Value.satisfies_eq`, `Value.satisfies_of_ne` — an operator speaks of the order of two values of
  one type, and of no others.
-/

namespace RowStream

namespace Value

/-! ## The total order -/

theorem order_swap (v w : Value) : v.order w = (w.order v).swap := by
  cases v <;> cases w
  case int.int i j =>
    show compare i j = (compare j i).swap
    exact Std.OrientedCmp.eq_swap
  case int.str => rfl
  case str.int => rfl
  case str.str s t =>
    show compare s t = (compare t s).swap
    exact Std.OrientedCmp.eq_swap

instance : Std.TransCmp order where
  eq_swap := order_swap _ _
  isLE_trans := by
    intro u v w huv hvw
    cases u <;> cases v <;> cases w
    case int.int.int i j k =>
      have hij : (compare i j).isLE := huv
      show (compare i k).isLE
      exact Std.TransCmp.isLE_trans hij hvw
    case str.str.str s t r =>
      have hst : (compare s t).isLE := huv
      show (compare s r).isLE
      exact Std.TransCmp.isLE_trans hst hvw
    case int.int.str => rfl
    case int.str.str => rfl
    case int.str.int => cases hvw
    case str.int.int => cases huv
    case str.int.str => cases huv
    case str.str.int => cases hvw

instance : Std.LawfulEqCmp order where
  compare_self := by
    intro v
    cases v
    case int i =>
      show compare i i = .eq
      exact Std.ReflCmp.compare_self
    case str s =>
      show compare s s = .eq
      exact Std.ReflCmp.compare_self
  eq_of_compare := by
    intro v w h
    cases v <;> cases w
    case int.int i j =>
      have hij : compare i j = .eq := h
      exact congrArg int (Std.LawfulEqCmp.eq_of_compare hij)
    case str.str s t =>
      have hst : compare s t = .eq := h
      exact congrArg str (Std.LawfulEqCmp.eq_of_compare hst)
    case int.str => cases h
    case str.int => cases h

@[simp] theorem order_self (v : Value) : v.order v = .eq := Std.ReflCmp.compare_self

theorem eq_of_order {v w : Value} (h : v.order w = .eq) : v = w := Std.LawfulEqCmp.eq_of_compare h

/-! ## Operators -/

/-- Of two values of one type, an operator says what it says of their order. -/
theorem satisfies_eq {v w : Value} (h : v.type = w.type) (op : Comparison) :
    v.satisfies op w = op.holds (v.order w) := by
  unfold satisfies
  rw [compare?_eq_some_order h]
  rfl

/-- Two values of different types satisfy no operator. -/
theorem satisfies_of_ne {v w : Value} (h : v.type ≠ w.type) (op : Comparison) :
    v.satisfies op w = false := by
  unfold satisfies
  rw [compare?_eq_none h]
  rfl

/-- Equality holds of equal values only. -/
theorem satisfies_eq_iff {v w : Value} : v.satisfies .eq w = true ↔ v = w := by
  by_cases h : v.type = w.type
  · rw [satisfies_eq h]
    show (v.order w == .eq) = true ↔ v = w
    rw [beq_iff_eq]
    exact ⟨eq_of_order, fun h => h ▸ order_self v⟩
  · rw [satisfies_of_ne h]
    constructor
    · rintro ⟨⟩
    · rintro rfl
      exact absurd rfl h

end Value

end RowStream
