import RowStream.Predicate

/-!
# `RowStream.Join.Matching` — what a join of two lists of rows is

## Contents
- `Predicate.join` — the pairs that satisfy a condition, each as one row.
- `join_append_left`, `mem_join_iff` — joining part by part, and which rows a join has.
-/

namespace RowStream.Predicate

/-- For each left row, the right rows that satisfy the condition with it, each pair as one row. -/
def join (p : Predicate) (schema : Schema) (left right : List Row) : List Row :=
  left.flatMap fun l => (right.filter (p.holds l)).map (l.append · schema)

/-- Left rows can be joined part by part. -/
theorem join_append_left (p : Predicate) (schema : Schema) (left left' right : List Row) :
    p.join schema (left ++ left') right = p.join schema left right ++ p.join schema left' right := by
  simp [join]

/-- A join has exactly the rows that pair up a left row and a right row. -/
theorem mem_join_iff {p : Predicate} {schema : Schema} {left right : List Row} {row : Row} :
    row ∈ p.join schema left right ↔
      ∃ l ∈ left, ∃ r ∈ right, p.holds l r = true ∧ l.append r schema = row := by
  simp only [join, List.mem_flatMap, List.mem_map, List.mem_filter, and_assoc]

end RowStream.Predicate
