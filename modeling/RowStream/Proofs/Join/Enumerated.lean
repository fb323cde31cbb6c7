import RowStream.Proofs.Join.SortMerge
import RowStream.Proofs.Stream.Columns

/-!
# `RowStream.Proofs.Join.Enumerated` — the sorted join, row by row

How rows of one value are ordered by sorting is left open, so the join is a function of the two ways
in which the sides are sorted. Whatever these are, its rows are those of the plain loop over all pairs
of the sorted sides: none of the early exits is seen from outside, not even in the order of the rows.

Runs of equal values are found here as they are in arrays, by two positions that only move forwards.
The positions stop, and what they have paired up by then are the pairs of the recursion over lists.

## Contents
- `Join.enumerate` — the pairs of two sides, by a plain loop.
- `Join.Pointers`, `Pointers.Stops` — two positions, and a number of rounds after which they stop.
- `Pointers.stops` — they stop, and have the pairs of `equalPairs`.
- `Join.sortMergeBy` — the join with any two ways of sorting.
- `sortMerge_enumerates` — its rows, in their order.
-/

namespace RowStream

open Call

namespace Join

/-- For one left row after the other, the right rows whose value satisfies the operator with its
value, in the order in which the right side is read. -/
def enumerate (op : Comparison) (left right : List Keyed) : List (Row × Row) :=
  left.flatMap fun l =>
    ((readingOrder op right).filter fun r => l.1.satisfies op r.1).map fun r => (l.2, r.2)

/-- Each way to find partners on sorted sides is the plain loop. -/
theorem sortedPairs_eq_enumerate {type : DataType} {left right : List Keyed} (op : Comparison)
    (hl : Sorted left) (hr : Sorted right) (htl : OfType type left) (htr : OfType type right) :
    sortedPairs op left right = enumerate op left right :=
  sortedPairs_eq op hl hr htl htr

/-! ## Two positions -/

/-- Two positions on sorted sides, and the pairs so far. -/
structure Pointers where
  /-- The position on the left side. -/
  left : Nat := 0
  /-- The position on the right side. -/
  right : Nat := 0
  /-- The pairs so far. -/
  pairs : List (Row × Row) := []

namespace Pointers

/-- One round: the smaller value is left behind, and two runs of one value are paired up and left
behind. At the end of a side there is no round. -/
def round (left right : List Keyed) (m : Pointers) : Option Pointers :=
  match left[m.left]?, right[m.right]? with
  | some l, some r =>
    match l.1.order r.1 with
    | .lt => some { m with left := m.left + 1 }
    | .gt => some { m with right := m.right + 1 }
    | .eq =>
      let leftEnd := m.left + ((left.drop m.left).takeWhile (·.1 == l.1)).length
      let rightEnd := m.right + ((right.drop m.right).takeWhile (·.1 == l.1)).length
      some {
        left := leftEnd
        right := rightEnd
        pairs := m.pairs ++ (left.extract m.left leftEnd).flatMap fun l =>
          (right.extract m.right rightEnd).map fun r => (l.2, r.2) }
  | _, _ => none

/-- After `n` rounds the positions stop at `last`. -/
inductive Stops (left right : List Keyed) : Nat → Pointers → Pointers → Prop where
  /-- There is no round. -/
  | here {m : Pointers} : round left right m = none → Stops left right 0 m m
  /-- One round, and then the others. -/
  | step {n : Nat} {m m' last : Pointers} : round left right m = some m' →
    Stops left right n m' last → Stops left right (n + 1) m last

section Run

variable {rows : List Keyed} {row : Keyed} {rest : List Keyed} {i : Nat}

/-- The row at a position. -/
theorem getElem?_of_drop (h : rows.drop i = row :: rest) : rows[i]? = some row := by
  rw [← Nat.add_zero i, ← List.getElem?_drop, h]
  rfl

/-- Behind the row at a position. -/
theorem drop_succ_of_drop (h : rows.drop i = row :: rest) : rows.drop (i + 1) = rest := by
  rw [← List.drop_drop, h]
  rfl

/-- A run that begins at a position, up to where it ends. -/
theorem extract_run (v : Value) :
    rows.extract i (i + ((rows.drop i).takeWhile (·.1 == v)).length) =
      (rows.drop i).takeWhile (·.1 == v) := by
  rw [List.extract_eq_take_drop, Nat.add_sub_cancel_left, take_length_takeWhile]

/-- Behind a run that begins at a position. -/
theorem drop_run (v : Value) :
    rows.drop (i + ((rows.drop i).takeWhile (·.1 == v)).length) =
      (rows.drop i).dropWhile (·.1 == v) := by
  rw [← List.drop_drop, drop_length_takeWhile]

end Run

variable {left right : List Keyed}

/-- Where a run of one value begins on both sides, the round pairs up the two runs and goes on behind
them. -/
theorem round_of_runs {m : Pointers} {v : Value} {l r : Row} {left' right' : List Keyed}
    (hl : left.drop m.left = (v, l) :: left') (hr : right.drop m.right = (v, r) :: right') :
    ∃ m', round left right m = some m' ∧
      left.drop m'.left = left'.dropWhile (·.1 == v) ∧
      right.drop m'.right = right'.dropWhile (·.1 == v) ∧
      m'.pairs = m.pairs ++ (l :: (left'.takeWhile (·.1 == v)).map (·.2)).flatMap fun l =>
        (r :: (right'.takeWhile (·.1 == v)).map (·.2)).map (l, ·) := by
  -- the first row of a run belongs to it
  have htake : ∀ (row : Row) (rest : List Keyed), ((v, row) :: rest).takeWhile (·.1 == v) =
      (v, row) :: rest.takeWhile (·.1 == v) := fun _ _ => by simp
  have hdrop : ∀ (row : Row) (rest : List Keyed), ((v, row) :: rest).dropWhile (·.1 == v) =
      rest.dropWhile (·.1 == v) := fun _ _ => by simp
  unfold round
  rw [getElem?_of_drop hl, getElem?_of_drop hr]
  simp only [Value.order_self]
  refine ⟨_, rfl, ?_, ?_, ?_⟩
  · show left.drop (m.left + ((left.drop m.left).takeWhile (·.1 == v)).length) = _
    rw [drop_run, hl, hdrop]
  · show right.drop (m.right + ((right.drop m.right).takeWhile (·.1 == v)).length) = _
    rw [drop_run, hr, hdrop]
  · show m.pairs ++ _ = _
    rw [extract_run, extract_run, hl, hr, htake, htake]
    simp [List.flatMap_map, Function.comp_def]

/-- The positions stop behind what is left of one side, and by then the pairs of the recursion have
come. -/
theorem stops_from {l r : List Keyed} {m : Pointers} (hl : left.drop m.left = l)
    (hr : right.drop m.right = r) :
    ∃ n ≤ l.length + r.length, ∃ last, Stops left right n m last ∧
      last.pairs = m.pairs ++ equalPairs l r := by
  fun_induction equalPairs l r generalizing m with
  | case1 r =>
    have hnone : round left right m = none := by
      unfold round
      rw [List.getElem?_eq_none (List.drop_eq_nil_iff.1 hl)]
    exact ⟨0, Nat.zero_le _, m, .here hnone, (List.append_nil _).symm⟩
  | case2 l =>
    have hnone : round left right m = none := by
      unfold round
      rw [List.getElem?_eq_none (List.drop_eq_nil_iff.1 hr)]
      cases left[m.left]? <;> rfl
    exact ⟨0, Nat.zero_le _, m, .here hnone, (List.append_nil _).symm⟩
  | case3 v l left' w r right' hlt ih =>
    have hround : round left right m = some { m with left := m.left + 1 } := by
      unfold round
      rw [getElem?_of_drop hl, getElem?_of_drop hr]
      simp only [hlt]
    obtain ⟨n, hn, last, hstops, hpairs⟩ := ih (m := { m with left := m.left + 1 })
      (drop_succ_of_drop hl) hr
    refine ⟨n + 1, ?_, last, .step hround hstops, hpairs⟩
    simp only [List.length_cons] at hn ⊢
    omega
  | case4 v l left' w r right' hgt ih =>
    have hround : round left right m = some { m with right := m.right + 1 } := by
      unfold round
      rw [getElem?_of_drop hl, getElem?_of_drop hr]
      simp only [hgt]
    obtain ⟨n, hn, last, hstops, hpairs⟩ := ih (m := { m with right := m.right + 1 })
      hl (drop_succ_of_drop hr)
    refine ⟨n + 1, ?_, last, .step hround hstops, hpairs⟩
    simp only [List.length_cons] at hn ⊢
    omega
  | case5 v l left' w r right' heq ls rs =>
    rename_i ih
    obtain rfl := Value.eq_of_order heq
    obtain ⟨m', hround, hl', hr', hpairs'⟩ := round_of_runs hl hr
    obtain ⟨n, hn, last, hstops, hpairs⟩ := ih hl' hr'
    refine ⟨n + 1, ?_, last, .step hround hstops, ?_⟩
    · have hleft := (List.dropWhile_sublist (l := left') (·.1 == v)).length_le
      have hright := (List.dropWhile_sublist (l := right') (·.1 == v)).length_le
      simp only [List.length_cons]
      omega
    · rw [hpairs, hpairs', List.append_assoc]

/-- From the first rows on, the positions stop after no more rounds than there are rows, and then have
the pairs of equal values. -/
theorem stops (left right : List Keyed) :
    ∃ n ≤ left.length + right.length, ∃ last, Stops left right n {} last ∧
      last.pairs = equalPairs left right :=
  stops_from (m := {}) rfl rfl

end Pointers

/-! ## Any two ways of sorting -/

variable {σ τ : Type} [Cursor σ] [Cursor τ] {store : PageStore}

/-- The rows of a stream that have a value at `field`, sorted in some way. -/
def sortedRunBy (sort : List Keyed → List Keyed) (field : Nat) : Call σ (List Keyed) := do
  Cursor.rewind
  return sort ((← Cursor.drain).filterMap (keyed? field))

/-- The sorted join, where each side is sorted in a way of its own. -/
def sortMergeBy (sortLeft sortRight : List Keyed → List Keyed) (p : Predicate) (schema : Schema) :
    Call (σ × τ) (List Row) := do
  let (left, right) ← Call.get
  let leftType ← Call.ofExcept ((Cursor.schema left).fieldType p.leftField |>.mapError .data)
  let rightType ← Call.ofExcept ((Cursor.schema right).fieldType p.rightField |>.mapError .data)
  if leftType = rightType then
    let left ← Call.onLeft (sortedRunBy sortLeft p.leftField)
    let right ← Call.onRight (sortedRunBy sortRight p.rightField)
    return (sortedPairs p.op left right).map fun (l, r) => l.append r schema
  else return []

/-- The join sorts both sides in the way that is given. -/
theorem sortMerge_eq_sortMergeBy [Sorting] (p : Predicate) (schema : Schema) :
    (sortMerge p schema : Call (σ × τ) (List Row)) =
      sortMergeBy Sorting.sort Sorting.sort p schema := rfl

/-- A sorted side is the sorted list of the rows that a pass over it gives. -/
theorem sortedRunBy_result (sort : List Keyed → List Keyed) (field : Nat) {s : σ} {rows : List Row}
    (h : (Cursor.recollect store s).result = .ok rows) :
    (sortedRunBy sort field store s).result = .ok (sort (rows.filterMap (keyed? field))) := by
  obtain ⟨_, hrewind, hdrain, -⟩ := ok_of_bind h
  unfold sortedRunBy
  rw [bind_of_ok hrewind]
  show (((Cursor.drain : Call σ (List Row)) >>= fun rows =>
    return sort (rows.filterMap (keyed? field))) store _).result = _
  rw [(bind_return store Cursor.drain _ _).1, hdrain]
  rfl

/-- Where the join columns are of one type, the join finds the pairs of the two sorted sides. -/
theorem sortMergeBy_result (sortLeft sortRight : List Keyed → List Keyed) {p : Predicate}
    (schema : Schema) {type : DataType} {s : σ} {t : τ} {left right : List Row}
    (hleft : (Cursor.recollect store s).result = .ok left)
    (hright : (Cursor.recollect store t).result = .ok right)
    (htl : (Cursor.schema s).types[p.leftField]? = some type)
    (htr : (Cursor.schema t).types[p.rightField]? = some type) :
    (sortMergeBy sortLeft sortRight p schema store (s, t)).result =
      .ok ((sortedPairs p.op (sortLeft (left.filterMap (keyed? p.leftField)))
        (sortRight (right.filterMap (keyed? p.rightField)))).map fun (l, r) => l.append r schema) := by
  unfold sortMergeBy
  rw [bind_of_ok (c := Call.get) (a := (s, t)) rfl]
  simp only [Schema.fieldType_eq_ok_iff.2 htl, Schema.fieldType_eq_ok_iff.2 htr, mapError_ok]
  rw [bind_of_ok (c := Call.ofExcept _) (a := type) rfl,
    bind_of_ok (c := Call.ofExcept _) (a := type) rfl, if_pos rfl]
  show ((Call.onLeft (sortedRunBy sortLeft p.leftField) >>= _) store (s, t)).result = _
  rw [onLeft_bind_of_ok (sortedRunBy_result sortLeft p.leftField hleft)]
  show ((Call.onRight (sortedRunBy sortRight p.rightField) >>= _) store (_, t)).result = _
  rw [onRight_bind_of_ok (sortedRunBy_result sortRight p.rightField hright)]
  rfl

/-- Whatever the order of the rows of one value after sorting, the sorted join of two sides, whose
rows conform to their columns and whose join columns are of one type, is the plain loop over the sorted
sides: for each left row in order, the right rows whose value satisfies the operator with its value, in
their order or, where the left value is to be below, in the opposite order. Both sides are sorted, and
the rows without a value are left out. For equality, the two positions on the sorted sides stop after no
more rounds than there are rows, with the same pairs. -/
theorem sortMerge_enumerates [Sorting] {p : Predicate} {schema : Schema} {type : DataType} {s : σ}
    {t : τ} {left right : List Row} (hleft : (Cursor.recollect store s).result = .ok left)
    (hright : (Cursor.recollect store t).result = .ok right)
    (hl : ∀ row ∈ left, row.Conforms (Cursor.schema s))
    (hr : ∀ row ∈ right, row.Conforms (Cursor.schema t))
    (htl : (Cursor.schema s).types[p.leftField]? = some type)
    (htr : (Cursor.schema t).types[p.rightField]? = some type) :
    (sortMerge p schema : Call (σ × τ) (List Row)) =
      sortMergeBy Sorting.sort Sorting.sort p schema ∧
    (∀ rows, Sorts Sorting.sort rows) ∧
    ∀ {sortLeft sortRight : List Keyed → List Keyed} {sortedLeft sortedRight : List Keyed},
      sortedLeft = sortLeft (left.filterMap (keyed? p.leftField)) →
      sortedRight = sortRight (right.filterMap (keyed? p.rightField)) →
      Sorts sortLeft (left.filterMap (keyed? p.leftField)) →
      Sorts sortRight (right.filterMap (keyed? p.rightField)) →
      (sortMergeBy sortLeft sortRight p schema store (s, t)).result =
          .ok ((enumerate p.op sortedLeft sortedRight).map fun (l, r) => l.append r schema) ∧
        ∃ n ≤ sortedLeft.length + sortedRight.length, ∃ last,
          Pointers.Stops sortedLeft sortedRight n {} last ∧
            last.pairs = enumerate .eq sortedLeft sortedRight := by
  refine ⟨sortMerge_eq_sortMergeBy p schema, Sorting.sorts, ?_⟩
  rintro sortLeft sortRight _ _ rfl rfl hsl hsr
  -- sorting changes no value, so both sides are still of the type of their column
  have hol : OfType type (sortLeft (left.filterMap (keyed? p.leftField))) :=
    fun w hw => ofType_keyed hl htl w (hsl.perm.mem_iff.1 hw)
  have hor : OfType type (sortRight (right.filterMap (keyed? p.rightField))) :=
    fun w hw => ofType_keyed hr htr w (hsr.perm.mem_iff.1 hw)
  have hpairs : ∀ op, sortedPairs op _ _ = enumerate op _ _ :=
    fun op => sortedPairs_eq_enumerate op hsl.sorted hsr.sorted hol hor
  constructor
  · rw [sortMergeBy_result sortLeft sortRight schema hleft hright htl htr, hpairs]
  · obtain ⟨n, hn, last, hstops, hlast⟩ := Pointers.stops (sortLeft (left.filterMap (keyed? p.leftField)))
      (sortRight (right.filterMap (keyed? p.rightField)))
    exact ⟨n, hn, last, hstops, hlast.trans (hpairs .eq)⟩

/-- Two columns of integers that come in descending order are sorted by turning them round, and then
the right one is read from its end. -/
theorem sortMerge_enumerates_of_columns :
    (sortMergeBy List.reverse List.reverse ⟨0, .le, 0⟩ (.ofTypes [.int, .int]) (PageStore.empty 64)
        (Stream.openColumn [some 2, none, some 1], Stream.openColumn [some 2, some 1])).result =
      .ok [⟨.ofTypes [.int, .int], [some (.int 1), some (.int 2)], none⟩,
        ⟨.ofTypes [.int, .int], [some (.int 1), some (.int 1)], none⟩,
        ⟨.ofTypes [.int, .int], [some (.int 2), some (.int 2)], none⟩] := by
  have hrows : ∀ cells : List (Option Int64),
      (Cursor.recollect (PageStore.empty 64) (Stream.openColumn cells)).result =
        .ok (Stream.columnRows cells) := fun cells =>
    Stream.redrains_openColumn (PageStore.empty 64) cells _ .refl
  have hleft : Sorts List.reverse ((Stream.columnRows [some 2, none, some 1]).filterMap (keyed? 0)) :=
    ⟨by unfold Sorted; decide, List.reverse_perm _⟩
  have hright : Sorts List.reverse ((Stream.columnRows [some 2, some 1]).filterMap (keyed? 0)) :=
    ⟨by unfold Sorted; decide, List.reverse_perm _⟩
  have htype : (Schema.ofTypes [.int]).types[0]? = some .int := rfl
  obtain ⟨-, -, hjoin⟩ := sortMerge_enumerates (p := ⟨0, .le, 0⟩) (hrows [some 2, none, some 1])
    (hrows [some 2, some 1]) (Stream.conforms_columnRows _) (Stream.conforms_columnRows _) htype htype
  exact (hjoin rfl rfl hleft hright).1.trans (by decide)

end Join

end RowStream
