/-!
# `RowStream.Join.PartitionPoint` — where a sorted array changes over

If a property holds for the first elements of an array and for none behind them, the index where it
stops is found by halving.

## Contents
- `partitionPointIn`, `partitionPoint` — the search in an interval and in the whole array.
- `partitionPoint_eq` — the search finds the index at which the property stops.
-/

namespace RowStream

variable {α : Type}

/-- The index between `lo` and `hi` at which `p` stops: the half on whose side the middle element
speaks is searched on. -/
def partitionPointIn (p : α → Bool) (xs : Array α) (lo hi : Nat) : Nat :=
  if lo < hi then
    let mid := lo + (hi - lo) / 2
    if xs[mid]?.any p then partitionPointIn p xs (mid + 1) hi else partitionPointIn p xs lo mid
  else lo
termination_by hi - lo

/-- The index at which `p` stops. -/
def partitionPoint (p : α → Bool) (xs : Array α) : Nat := partitionPointIn p xs 0 xs.size

theorem partitionPointIn_eq {p : α → Bool} {xs : Array α} {k lo hi : Nat}
    (h : ∀ i, xs[i]?.any p = true ↔ i < k) (hlo : lo ≤ k) (hhi : k ≤ hi) :
    partitionPointIn p xs lo hi = k := by
  fun_induction partitionPointIn p xs lo hi with
  | case1 lo hi hlt mid hp ih =>
    have := (h mid).1 hp
    exact ih (by omega) hhi
  | case2 lo hi hlt mid hp ih =>
    have := mt (h mid).2 hp
    exact ih hlo (by omega)
  | case3 lo hi hge => omega

/-- The search finds the index at which the property stops. -/
theorem partitionPoint_eq {p : α → Bool} {xs : Array α} {k : Nat} (hk : k ≤ xs.size)
    (h : ∀ i, xs[i]?.any p = true ↔ i < k) : partitionPoint p xs = k :=
  partitionPointIn_eq h (Nat.zero_le k) hk

end RowStream
