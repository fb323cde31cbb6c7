import Mathlib.Data.List.Induction
import RowStream.Proofs.Join.Answer
import RowStream.Proofs.Join.Matching
import RowStream.Proofs.Stream.Columns
import RowStream.Proofs.Value.Order

/-!
# `RowStream.Proofs.Join.HashTable` — what the table of the left rows finds

While the left side is read, the table holds, for every value, exactly the rows of that value that have
been read, in their order. So a right row finds its left partners in their order, and the table may be
left alone if it is empty. Two values are one key exactly if they satisfy the condition of equality.

## Contents
- `bucket`, `tabulate`, `getD_tabulate` — the rows of a value, and the table that keeps them.
- `isEmpty_tabulate_iff` — when the table is empty.
- `keyPartners`, `toList_probe`, `holds_iff_key`, `keyPartners_eq_filter` — what a right row finds.
- `lookups`, `hashAnswer_eq`, `hash_result` — what all right rows find.
- `hash_enumerates` — the join, row by row.
-/

namespace RowStream.Join

open Call

variable {p : Predicate} {schema : Schema} {left : List Row}

/-! ## The table -/

/-- The rows of this value at `field`. -/
def bucket (field : Nat) (rows : List Row) (key : Value) : List Row :=
  rows.filter fun row => row.get? field == some key

/-- The table of the rows by their values at `field`. -/
def tabulate (field : Nat) (rows : List Row) : Buckets := rows.foldl (addRow field) ∅

/-- One more row comes into the table last. -/
theorem tabulate_concat (field : Nat) (rows : List Row) (row : Row) :
    tabulate field (rows ++ [row]) = addRow field (tabulate field rows) row := List.foldl_concat ..

theorem bucket_concat (field : Nat) (rows : List Row) (row : Row) (key : Value) :
    bucket field (rows ++ [row]) key =
      if row.get? field = some key then bucket field rows key ++ [row] else bucket field rows key := by
  unfold bucket
  rw [List.filter_append]
  by_cases h : row.get? field = some key <;> simp [h]

/-- The table keeps for each value the rows of that value, in their order. -/
theorem getD_tabulate (field : Nat) (rows : List Row) (key : Value) :
    (tabulate field rows).getD key #[] = (bucket field rows key).toArray := by
  -- row by row, in the order in which they are put into the table
  induction rows using List.reverseRecOn with
  | nil => exact Std.HashMap.getD_empty
  | append_singleton rows row ih =>
    rw [tabulate_concat, getD_addRow, bucket_concat, ih]
    by_cases h : row.get? field = some key
    · rw [if_pos h, if_pos h, List.push_toArray]
    · rw [if_neg h, if_neg h]

/-- A row with a value leaves no table empty, and any other row leaves the table alone. -/
theorem isEmpty_addRow (field : Nat) (buckets : Buckets) (row : Row) :
    (addRow field buckets row).isEmpty = ((row.get? field).isNone && buckets.isEmpty) := by
  unfold addRow
  cases row.get? field with
  | none => rfl
  | some key => simp

/-- The table is empty exactly if no row has a value. -/
theorem isEmpty_tabulate_iff (field : Nat) (rows : List Row) :
    (tabulate field rows).isEmpty = true ↔ ∀ row ∈ rows, row.get? field = none := by
  induction rows using List.reverseRecOn with
  | nil => simp [tabulate]
  | append_singleton rows row ih =>
    rw [tabulate_concat, isEmpty_addRow, Bool.and_eq_true, ih, Option.isNone_iff_eq_none]
    simp [or_imp, forall_and, and_comm]

/-! ## What a right row finds -/

/-- The left rows whose value is that of the right row, in their order. -/
def keyPartners (p : Predicate) (left : List Row) (r : Row) : List Row :=
  match r.get? p.rightField with
  | some key => bucket p.leftField left key
  | none => []

/-- A right row finds its partners in the table. -/
theorem toList_probe (p : Predicate) (left : List Row) (r : Row) :
    (probe p.rightField (tabulate p.leftField left) r).toList = keyPartners p left r := by
  unfold probe keyPartners
  cases r.get? p.rightField with
  | none => rfl
  | some key => exact congrArg Array.toList (getD_tabulate p.leftField left key)

/-- Where no left row has a value, no right row finds anything. -/
theorem keyPartners_eq_nil (h : ∀ l ∈ left, l.get? p.leftField = none) (r : Row) :
    keyPartners p left r = [] := by
  unfold keyPartners
  cases r.get? p.rightField with
  | none => rfl
  | some key =>
    apply List.filter_eq_nil_iff.2
    intro l hl
    rw [h l hl]
    exact Bool.false_ne_true

/-- Two rows satisfy equality exactly if both have a value and it is one and the same. -/
theorem holds_iff_key (hop : p.op = .eq) (l r : Row) :
    p.holds l r = true ↔
      ∃ key, l.get? p.leftField = some key ∧ r.get? p.rightField = some key := by
  rw [Predicate.holds_iff, hop]
  constructor
  · rintro ⟨v, w, hv, hw, heq⟩
    obtain rfl := Value.satisfies_eq_iff.1 heq
    exact ⟨v, hv, hw⟩
  · rintro ⟨key, hl, hr⟩
    exact ⟨key, key, hl, hr, Value.satisfies_eq_iff.2 rfl⟩

/-- For equality, the partners are the left rows that satisfy the condition. -/
theorem keyPartners_eq_filter (hop : p.op = .eq) (left : List Row) (r : Row) :
    keyPartners p left r = left.filter (p.holds · r) := by
  unfold keyPartners
  cases hr : r.get? p.rightField with
  | none =>
    symm
    apply List.filter_eq_nil_iff.2
    intro l _ hholds
    obtain ⟨key, -, hkey⟩ := (holds_iff_key hop l r).1 hholds
    rw [hr] at hkey
    cases hkey
  | some key =>
    refine List.filter_congr fun l _ => ?_
    rw [Bool.eq_iff_iff, beq_iff_eq, holds_iff_key hop, hr]
    simp [eq_comm]

/-! ## What all right rows find -/

/-- For each right row in turn, its partners in turn, each pair as one row. -/
def lookups (p : Predicate) (schema : Schema) (left right : List Row) : List Row :=
  right.flatMap fun r => (keyPartners p left r).map (·.append r schema)

/-- No pair that satisfies equality is lost, and none is found twice. -/
theorem lookups_perm (hop : p.op = .eq) (schema : Schema) (left right : List Row) :
    (lookups p schema left right).Perm (p.join schema left right) := by
  unfold lookups
  simp only [keyPartners_eq_filter hop]
  exact (Predicate.join_perm_flatMap_right p schema left right).symm

/-- Where no left row has a value, nothing is found, whatever the right rows. -/
theorem lookups_eq_nil (h : ∀ l ∈ left, l.get? p.leftField = none) (schema : Schema)
    (right : List Row) : lookups p schema left right = [] := by
  apply List.flatMap_eq_nil_iff.2
  intro r _
  rw [keyPartners_eq_nil h]
  rfl

/-- Looking up the right rows one by one. -/
theorem foldl_probe (p : Predicate) (schema : Schema) (left right : List Row) (out : Array Row) :
    (right.foldl (fun out r =>
      out ++ (probe p.rightField (tabulate p.leftField left) r).map (·.append r schema)) out).toList =
        out.toList ++ lookups p schema left right := by
  induction right generalizing out with
  | nil => exact (List.append_nil _).symm
  | cons r right ih =>
    rw [List.foldl_cons, ih, Array.toList_append, Array.toList_map, toList_probe, List.append_assoc]
    rfl

/-- What looking up the right rows in a table of the left rows finds. -/
theorem hashAnswer_eq (hop : p.op = .eq) (left right : List Row) :
    hashAnswer p schema ⟨left, none⟩ ⟨right, none⟩ = .ok (lookups p schema left right) := by
  unfold hashAnswer
  rw [if_pos hop, Script.foldM_pure]
  show (if (tabulate p.leftField left).isEmpty then _ else _) = _
  by_cases hempty : (tabulate p.leftField left).isEmpty = true
  · rw [if_pos hempty, lookups_eq_nil ((isEmpty_tabulate_iff _ _).1 hempty)]
    rfl
  · rw [if_neg hempty, Script.foldM_pure]
    exact congrArg Except.ok (foldl_probe p schema left right #[])

variable {σ τ : Type} [Cursor σ] [Cursor τ] {store : PageStore} {s : σ} {t : τ} {right : List Row}

/-- What the join finds on sides that give these rows. Without a left row that has a value, nothing is
asked of the right side. -/
theorem hash_result (hop : p.op = .eq) (schema : Schema)
    (hleft : (Cursor.recollect store s).result = .ok left)
    (hright : (∃ l ∈ left, l.get? p.leftField ≠ none) →
      (Cursor.recollect store t).result = .ok right) :
    (hash p schema store (s, t)).result = .ok (lookups p schema left right) := by
  obtain ⟨_, hrewind, hdrain, -⟩ := ok_of_bind hleft
  have htable : (Cursor.fold (fun buckets row => .ok (addRow p.leftField buckets row)) ∅ store
      (Cursor.rewind store s).state).result = .ok (tabulate p.leftField left) := by
    rw [(Cursor.gives_of_drain hdrain).fold, Script.foldM_pure]
    rfl
  unfold hash
  rw [if_pos hop, onLeft_bind_of_ok hrewind, onLeft_bind_of_ok htable]
  show ((if (tabulate p.leftField left).isEmpty then _ else _ : Call (σ × τ) (List Row)) _ _).result = _
  by_cases hempty : (tabulate p.leftField left).isEmpty = true
  · rw [if_pos hempty, lookups_eq_nil ((isEmpty_tabulate_iff _ _).1 hempty)]
    rfl
  · rw [if_neg hempty]
    -- some left row has a value, so the right side is read
    rw [isEmpty_tabulate_iff] at hempty
    push Not at hempty
    obtain ⟨_, hrewind, hdrain, -⟩ := ok_of_bind (hright hempty)
    have hfound := (Cursor.gives_of_drain hdrain).fold (fun out r => .ok (out ++
      (probe p.rightField (tabulate p.leftField left) r).map (·.append r schema))) #[]
    rw [Script.foldM_pure] at hfound
    rw [onRight_bind_of_ok hrewind]
    show ((Call.onRight (Cursor.fold _ _) >>= _) store (_, (Cursor.rewind store t).state)).result = _
    rw [onRight_bind_of_ok hfound]
    exact congrArg Except.ok (foldl_probe p schema left right #[])

/-- A join by a table, for equality, of two sides that give any rows: for each right row in turn come
the left rows of the same value, in their order, each pair as one row, and that are the pairs of rows
that satisfy the condition, each of them once. While the left rows are put into the table, it holds for
each value the rows of that value so far. Where it stays empty, looking up any right rows would find
nothing, and the right side is not read. -/
theorem hash_enumerates (hop : p.op = .eq) (schema : Schema)
    (hleft : (Cursor.recollect store s).result = .ok left)
    (hright : (∃ l ∈ left, l.get? p.leftField ≠ none) →
      (Cursor.recollect store t).result = .ok right) :
    (hash p schema store (s, t)).result =
        .ok (right.flatMap fun r => (keyPartners p left r).map fun l => l.append r schema) ∧
      (∀ l r, p.holds l r = true ↔
        ∃ key, l.get? p.leftField = some key ∧ r.get? p.rightField = some key) ∧
      (∀ r, keyPartners p left r = left.filter fun l => p.holds l r) ∧
      (right.flatMap fun r => (keyPartners p left r).map fun l => l.append r schema).Perm
        (p.join schema left right) ∧
      (∀ (rows : List Row) (key : Value), (rows.foldl (addRow p.leftField) ∅).getD key #[] =
        (rows.filter fun l => l.get? p.leftField == some key).toArray) ∧
      ((left.foldl (addRow p.leftField) ∅).isEmpty = true →
        ∀ r, probe p.rightField (left.foldl (addRow p.leftField) ∅) r = #[]) := by
  refine ⟨hash_result hop schema hleft hright, holds_iff_key hop, keyPartners_eq_filter hop left,
    lookups_perm hop schema left right, getD_tabulate p.leftField, ?_⟩
  intro hempty r
  apply Array.toList_inj.1
  show (probe p.rightField (tabulate p.leftField left) r).toList = []
  rw [toList_probe, keyPartners_eq_nil ((isEmpty_tabulate_iff _ _).1 hempty)]

/-- Columns with equal values on both sides, and with absent ones. -/
theorem hash_enumerates_of_columns :
    (hash ⟨0, .eq, 0⟩ (.ofTypes [.int, .int]) (PageStore.empty 64)
        (Stream.openColumn [some 1, none, some 2, some 1], Stream.openColumn [some 1, none, some 1])).result =
      .ok (List.replicate 4 ⟨.ofTypes [.int, .int], [some (.int 1), some (.int 1)], none⟩) := by
  have hrows : ∀ cells : List (Option Int64),
      (Cursor.recollect (PageStore.empty 64) (Stream.openColumn cells)).result =
        .ok (Stream.columnRows cells) := fun cells =>
    Stream.redrains_openColumn (PageStore.empty 64) cells _ .refl
  obtain ⟨hjoin, -⟩ := hash_enumerates (p := ⟨0, .eq, 0⟩) rfl (.ofTypes [.int, .int])
    (hrows [some 1, none, some 2, some 1]) (fun _ => hrows [some 1, none, some 1])
  exact hjoin.trans (by decide)

end RowStream.Join
