import Mathlib.Data.List.Perm.Basic
import RowStream.Join.Matching
import RowStream.Proofs.Row.Conforms

/-!
# `RowStream.Proofs.Join.Matching` — joining lists of rows in any order

The order of the rows on either side decides the order of the joined rows and nothing else, and it
does not matter which side is gone through first.

## Contents
- `join_perm_left`, `join_perm_right` — the order of the sides.
- `join_append_right` — right rows can be joined part by part.
- `joinPieces`, `joinPieces_perm` — both sides can be joined piece by piece.
- `join_perm_flatMap_right` — going through the right side first.
- `conforms_join` — the joined rows conform to the columns of both sides.
- `join_bare_perm` — what is joined depends on the cells of the rows only.
-/

namespace RowStream.Predicate

variable {p : Predicate} {schema : Schema} {left left' right right' : List Row}

/-- The order of the left rows does not matter. -/
theorem join_perm_left (h : left.Perm left') :
    (p.join schema left right).Perm (p.join schema left' right) :=
  h.flatMap_right _

/-- The order of the right rows does not matter. -/
theorem join_perm_right (h : right.Perm right') :
    (p.join schema left right).Perm (p.join schema left right') :=
  List.Perm.flatMap_left left fun l _ => (h.filter (p.holds l)).map _

/-- Right rows can be joined part by part. -/
theorem join_append_right (p : Predicate) (schema : Schema) (left right right' : List Row) :
    (p.join schema left (right ++ right')).Perm
      (p.join schema left right ++ p.join schema left right') := by
  refine List.Perm.trans (.of_eq ?_) (List.flatMap_append_perm left _ _).symm
  unfold join
  refine congrArg (List.flatMap · left) (funext fun l => ?_)
  rw [List.filter_append, List.map_append]

@[simp] theorem join_nil_right (p : Predicate) (schema : Schema) (left : List Row) :
    p.join schema left [] = [] := by
  simp [join]

/-- The partners of a single right row. -/
theorem join_singleton_right (p : Predicate) (schema : Schema) (left : List Row) (r : Row) :
    p.join schema left [r] = (left.filter (p.holds · r)).map (·.append r schema) := by
  induction left with
  | nil => rfl
  | cons l left ih =>
    unfold join at ih ⊢
    rw [List.flatMap_cons, ih, List.filter_cons]
    by_cases h : p.holds l r <;> simp [h]

/-- The sides piece by piece: each left piece is joined with each right piece. -/
def joinPieces (p : Predicate) (schema : Schema) (left right : List (List Row)) : List Row :=
  left.flatMap fun ls => right.flatMap fun rs => p.join schema ls rs

/-- Joining piece by piece is joining, but for the order of the rows. -/
theorem joinPieces_perm (p : Predicate) (schema : Schema) (left right : List (List Row)) :
    (p.joinPieces schema left right).Perm (p.join schema left.flatten right.flatten) := by
  have hright : ∀ ls, (right.flatMap fun rs => p.join schema ls rs).Perm
      (p.join schema ls right.flatten) := by
    intro ls
    induction right with
    | nil => simp
    | cons rs right ih =>
      rw [List.flatMap_cons, List.flatten_cons]
      exact (ih.append_left _).trans (join_append_right p schema ls rs right.flatten).symm
  unfold joinPieces
  induction left with
  | nil => rfl
  | cons ls left ih =>
    rw [List.flatMap_cons, List.flatten_cons, join_append_left]
    exact (hright ls).append ih

/-- One right row after the other, with its left partners. -/
theorem join_perm_flatMap_right (p : Predicate) (schema : Schema) (left right : List Row) :
    (p.join schema left right).Perm
      (right.flatMap fun r => (left.filter (p.holds · r)).map (·.append r schema)) := by
  induction right with
  | nil => simp
  | cons r right ih =>
    refine (join_append_right p schema left [r] right).trans ?_
    rw [join_singleton_right, List.flatMap_cons]
    exact ih.append_left _

/-- Where no pair of rows satisfies the condition, the join is empty. -/
theorem join_eq_nil (h : ∀ l ∈ left, ∀ r ∈ right, p.holds l r = false) :
    p.join schema left right = [] := by
  unfold join
  rw [List.flatMap_eq_nil_iff]
  intro l hl
  rw [List.map_eq_nil_iff, List.filter_eq_nil_iff]
  intro r hr
  rw [h l hl r hr]
  exact Bool.false_ne_true

/-- Rows that conform to the columns of the sides are joined to rows that conform to all of them. -/
theorem conforms_join {ls rs : Schema} (hl : ∀ row ∈ left, row.Conforms ls)
    (hr : ∀ row ∈ right, row.Conforms rs) :
    ∀ row ∈ p.join schema left right, row.Conforms (ls.append rs) := by
  intro row hrow
  obtain ⟨l, hleft, r, hright, -, rfl⟩ := mem_join_iff.1 hrow
  exact (hl l hleft).append (hr r hright) schema

/-- Whether two rows satisfy the condition depends on their cells only, and so do the joined rows. -/
theorem join_bare (p : Predicate) (schema : Schema) (left right : List Row) :
    (p.join schema left right).map Row.bare =
      (p.join schema (left.map Row.bare) (right.map Row.bare)).map Row.bare := by
  unfold join
  rw [List.map_flatMap, List.map_flatMap, List.flatMap_map]
  refine congrArg (List.flatMap · left) (funext fun l => ?_)
  rw [List.filter_map, List.map_map, List.map_map, List.map_map]
  rfl

/-- Sides with the same cells, in any order, are joined to rows with the same cells. -/
theorem join_bare_perm (p : Predicate) (schema schema' : Schema)
    (hleft : (left.map Row.bare).Perm (left'.map Row.bare))
    (hright : (right.map Row.bare).Perm (right'.map Row.bare)) :
    ((p.join schema left right).map Row.bare).Perm ((p.join schema' left' right').map Row.bare) := by
  have hschema : ∀ left right, (p.join schema left right).map Row.bare =
      (p.join schema' left right).map Row.bare := by
    intro left right
    unfold join
    rw [List.map_flatMap, List.map_flatMap]
    refine congrArg (List.flatMap · left) (funext fun l => ?_)
    rw [List.map_map, List.map_map]
    rfl
  rw [join_bare p schema left right, join_bare p schema' left' right', ← hschema]
  exact ((join_perm_left hleft).trans (join_perm_right hright)).map Row.bare

end RowStream.Predicate
