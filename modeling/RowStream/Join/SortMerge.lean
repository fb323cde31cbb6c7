import RowStream.Join.Matching
import RowStream.Join.PartitionPoint
import RowStream.Join.Sorting
import RowStream.Stream.Cursor

/-!
# `RowStream.Join.SortMerge` — both sides sorted by the join value

Rows without a join value pair up with nothing and are left out; the others are sorted by it. Then
the partners of a left row lie side by side: for equality they are the run of its value, for a
range they are one end of the right side, and for inequality they are what lies on both sides of
the run.

## Contents
- `Join.equalPairs` — pairing up the runs of equal values.
- `Join.rangePartners`, `Join.unequalPartners` — the partners of one left row, for the other
  operators.
- `Join.sortedPairs`, `Join.sortMerge` — the pairs of two sorted sides, and the whole join.
-/

namespace RowStream.Join

variable {σ τ : Type} [Cursor σ] [Cursor τ] [Sorting]

/-- The pairs of equal values: of two sorted sides, the side with the smaller value moves on, and
two runs of one value are paired up as a whole. -/
def equalPairs : List Keyed → List Keyed → List (Row × Row)
  | [], _ => []
  | _, [] => []
  | (v, l) :: left, (w, r) :: right =>
    match v.order w with
    | .lt => equalPairs left ((w, r) :: right)
    | .gt => equalPairs ((v, l) :: left) right
    | .eq =>
      let ls := l :: (left.takeWhile (·.1 == v)).map (·.2)
      let rs := r :: (right.takeWhile (·.1 == v)).map (·.2)
      ls.flatMap (fun l => rs.map (l, ·)) ++
        equalPairs (left.dropWhile (·.1 == v)) (right.dropWhile (·.1 == v))
termination_by left right => left.length + right.length
decreasing_by
  · simp only [List.length_cons]; omega
  · simp only [List.length_cons]; omega
  · have hl := (List.dropWhile_sublist (l := left) (·.1 == v)).length_le
    have hr := (List.dropWhile_sublist (l := right) (·.1 == v)).length_le
    simp only [List.length_cons]
    omega

/-- The partners of a left value for a range: they lie at one end of the sorted right side, which is
read from that end up to the first miss. -/
def rangePartners (op : Comparison) (v : Value) (right : List Keyed) : List Keyed :=
  right.takeWhile fun w => v.satisfies op w.1

/-- The partners of a left value for inequality: what lies before and behind the run of its value on
the sorted right side. -/
def unequalPartners (v : Value) (right : Array Keyed) : List Keyed :=
  let before := partitionPoint (fun w : Keyed => (w.1.order v).isLT) right
  let behind := partitionPoint (fun w : Keyed => (w.1.order v).isLE) right
  right.toList.take before ++ right.toList.drop behind

/-- The pairs of a left row with its partners. -/
def pairUp (left : List Keyed) (partners : Value → List Keyed) : List (Row × Row) :=
  left.flatMap fun (v, l) => (partners v).map fun w => (l, w.2)

/-- The pairs of two sorted sides. -/
def sortedPairs (op : Comparison) (left right : List Keyed) : List (Row × Row) :=
  match op with
  | .eq => equalPairs left right
  | .gt | .ge => pairUp left fun v => rangePartners op v right
  | .lt | .le =>
    let descending := right.reverse
    pairUp left fun v => rangePartners op v descending
  | .ne =>
    let right := right.toArray
    pairUp left fun v => unequalPartners v right

/-- The rows of a stream that have a value at `field`, in ascending order of it. -/
def sortedRun (field : Nat) : Call σ (List Keyed) := do
  Cursor.rewind
  return sortRows field (← Cursor.drain)

/-- Reads both sides once, unless their join columns have different types: then no two values can
be compared, and the join is empty. -/
def sortMerge (p : Predicate) (schema : Schema) : Call (σ × τ) (List Row) := do
  let (left, right) ← Call.get
  let leftType ← Call.ofExcept ((Cursor.schema left).fieldType p.leftField |>.mapError .data)
  let rightType ← Call.ofExcept ((Cursor.schema right).fieldType p.rightField |>.mapError .data)
  if leftType = rightType then
    let left ← Call.onLeft (sortedRun p.leftField)
    let right ← Call.onRight (sortedRun p.rightField)
    return (sortedPairs p.op left right).map fun (l, r) => l.append r schema
  else return []

end RowStream.Join
