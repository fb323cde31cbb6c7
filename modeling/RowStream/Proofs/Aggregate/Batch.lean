import RowStream.Proofs.Aggregate.Answer

/-!
# `RowStream.Proofs.Aggregate.Batch` — folding row by row is grouping and reducing at once

An aggregate takes the rows one at a time and keeps an accumulator for each key. What comes of it is
said here without accumulators: the rows are put into groups by their keys, and the function is
applied to each group as a whole, in the integers. The one thing that the incremental way adds is
that a sum is given up as soon as it leaves the 64-bit integers, even if it would come back.

## Contents
- `GroupKey.ofRow`, `GroupKey.rowsOf`, `Row.integers` — the groups of some rows, and their numbers.
- `AggregateFn.reduce` — a function of all numbers of a group.
- `value_of_knows` — the answer of an accumulator is the function of the cells that it took.
- `StaysInRange`, `fold_exact` — rows are folded exactly if every sum stays in range on the way.
- `Aggregate.Reduced`, `answer_exact` — the rows of an aggregate.
-/

namespace RowStream

/-! ## Grouping and reducing at once -/

/-- The key of a row by its group column, if there is one. -/
def GroupKey.ofRow (groupField : Option Nat) (row : Row) : GroupKey :=
  match groupField with
  | none => .ungrouped
  | some index =>
    match row.get? index with
    | some v => .value v
    | none => .absent

/-- The cell that stands for a key in the row of its group, if the rows have a group column. A string
is cut to what a cell holds. -/
def GroupKey.cells : GroupKey → List (Option Value)
  | .ungrouped => []
  | .absent => [none]
  | .value v => [some v.truncated]

/-- The rows with a key, in their order. -/
def GroupKey.rowsOf (groupField : Option Nat) (key : GroupKey) (rows : List Row) : List Row :=
  rows.filter fun row => GroupKey.ofRow groupField row = key

/-- The integer in a column, if the cell is present. -/
def Row.integer? (field : Nat) (row : Row) : Option Int :=
  match row.get? field with
  | some (.int i) => some i.toInt
  | _ => none

/-- The integers in a column, in the order of the rows. -/
def Row.integers (field : Nat) (rows : List Row) : List Int := rows.filterMap (Row.integer? field)

/-- The function of a group with that many rows and these numbers. Without a number there is no
answer, but a count. -/
def AggregateFn.reduce (fn : AggregateFn) (rows : Nat) (numbers : List Int) : Option Int :=
  match fn with
  | .count => some rows
  | .sum => if numbers = [] then none else some numbers.sum
  | .avg => if numbers = [] then none else some (numbers.sum.tdiv numbers.length)
  | .min => numbers.min?
  | .max => numbers.max?

namespace Accumulator

/-! ## The answer of an accumulator -/

/-- The integer is a 64-bit integer. -/
def InRange (i : Int) : Prop := Int64.minValue.toInt ≤ i ∧ i ≤ Int64.maxValue.toInt

theorem inRange_toInt (i : Int64) : InRange i.toInt := by
  have hmin : Int64.minValue.toInt = -2 ^ 63 := by decide
  have hmax : Int64.maxValue.toInt = 2 ^ 63 - 1 := by decide
  have hle := Int64.le_toInt i
  have hlt := Int64.toInt_lt i
  unfold InRange
  omega

theorem inRange_zero : InRange 0 := ⟨by decide, by decide⟩

/-- A 64-bit integer is not changed by being put into one. -/
theorem toInt_ofInt_of_inRange {i : Int} (h : InRange i) : (Int64.ofInt i).toInt = i := by
  have hmin : Int64.minValue.toInt = -2 ^ 63 := by decide
  have hmax : Int64.maxValue.toInt = 2 ^ 63 - 1 := by decide
  obtain ⟨hlow, hhigh⟩ := h
  exact Int64.toInt_ofInt_of_le (by omega) (by omega)

/-- The numbers of cells are 64-bit integers. -/
theorem inRange_of_mem_present {cells : List (Option Int64)} {i : Int} (h : i ∈ present cells) :
    InRange i := by
  obtain ⟨cell, -, hcell⟩ := List.mem_filterMap.1 h
  obtain ⟨j, -, rfl⟩ := Option.map_eq_some_iff.1 hcell
  exact inRange_toInt j

/-- A sum lies between as many of the least and as many of the greatest of its numbers. -/
theorem sum_between_mul {numbers : List Int} {low high : Int}
    (h : ∀ i ∈ numbers, low ≤ i ∧ i ≤ high) :
    numbers.length * low ≤ numbers.sum ∧ numbers.sum ≤ numbers.length * high := by
  constructor
  · have hlow := List.card_nsmul_le_sum numbers low fun i hi => (h i hi).1
    rwa [nsmul_eq_mul] at hlow
  · have hhigh := List.sum_le_card_nsmul numbers high fun i hi => (h i hi).2
    rwa [nsmul_eq_mul] at hhigh

/-- A mean lies between the least and the greatest of its numbers. -/
theorem mean_between {numbers : List Int} {low high : Int} (hne : numbers ≠ [])
    (h : ∀ i ∈ numbers, low ≤ i ∧ i ≤ high) :
    low ≤ numbers.sum.tdiv numbers.length ∧ numbers.sum.tdiv numbers.length ≤ high := by
  have hpos : (0 : Int) < numbers.length := by
    have := List.length_pos_iff.2 hne
    omega
  obtain ⟨hlow, hhigh⟩ := sum_between_mul h
  rw [Int.mul_comm] at hlow hhigh
  -- a mean is cut toward zero, so the two signs are two divisions
  rcases Int.le_total 0 numbers.sum with hsign | hsign
  · rw [Int.tdiv_eq_ediv_of_nonneg hsign]
    exact ⟨Int.le_ediv_of_mul_le hpos hlow, Int.ediv_le_of_le_mul hpos hhigh⟩
  · have hneg : 0 ≤ -numbers.sum := by omega
    have hcut : numbers.sum.tdiv numbers.length = -(-numbers.sum / numbers.length) := by
      rw [← Int.tdiv_eq_ediv_of_nonneg hneg, Int.neg_tdiv, Int.neg_neg]
    have hbelow : -numbers.sum / numbers.length ≤ -low := by
      apply Int.ediv_le_of_le_mul hpos
      rw [Int.neg_mul]
      omega
    have habove : -high ≤ -numbers.sum / numbers.length := by
      apply Int.le_ediv_of_mul_le hpos
      rw [Int.neg_mul]
      omega
    rw [hcut]
    omega

/-- The answer of an accumulator is the function of the cells that it took. -/
theorem value_of_knows {cells : List (Option Int64)} {acc : Accumulator} (h : acc.Knows cells)
    (hfew : cells.length < 2 ^ 63) :
    acc.value.map Int64.toInt = acc.fn.reduce cells.length (present cells) := by
  match acc with
  | count rows =>
    have hrows : rows = cells.length := h
    subst hrows
    have htoInt : (Int64.ofNat cells.length).toInt = cells.length :=
      Int64.toInt_ofNat_of_lt hfew
    exact congrArg some htoInt
  | sum none =>
    have hnil : present cells = [] := h
    simp [value, fn, AggregateFn.reduce, hnil]
  | sum (some total) =>
    obtain ⟨hne, hsum⟩ := h
    simp [value, fn, AggregateFn.reduce, hne, hsum]
  | min none =>
    have hnil : present cells = [] := h
    simp [value, fn, AggregateFn.reduce, hnil]
  | min (some least) => exact (List.min?_eq_some_iff.2 h).symm
  | max none =>
    have hnil : present cells = [] := h
    simp [value, fn, AggregateFn.reduce, hnil]
  | max (some greatest) => exact (List.max?_eq_some_iff.2 h).symm
  | avg 0 total =>
    have hnil : present cells = [] := List.length_eq_zero_iff.1 h.1.symm
    simp [value, fn, AggregateFn.reduce, hnil]
  | avg (n + 1) total =>
    obtain ⟨hn, rfl⟩ := h
    have hne : present cells ≠ [] := by
      intro hnil
      simp [hnil] at hn
    have hrange : InRange ((present cells).sum.tdiv (present cells).length) :=
      mean_between hne fun i hi => inRange_of_mem_present hi
    have hvalue : (avg (n + 1) (present cells).sum).value =
        some (Int64.ofInt ((present cells).sum.tdiv (present cells).length)) := by
      rw [← hn]
      rfl
    rw [hvalue, Option.map_some, toInt_ofInt_of_inRange hrange]
    simp [fn, AggregateFn.reduce, hne]

/-! ## Sums on the way -/

/-- Adding up the numbers one by one never leaves the 64-bit integers. -/
def StaysInRange (numbers : List Int) : Prop := ∀ first, first <+: numbers → InRange first.sum

/-- One more number must not take the sum out of range. -/
theorem staysInRange_concat {numbers : List Int} {i : Int} :
    StaysInRange (numbers ++ [i]) ↔ StaysInRange numbers ∧ InRange (numbers ++ [i]).sum := by
  constructor
  · intro h
    exact ⟨fun first hfirst => h first (hfirst.trans (List.prefix_append _ _)),
      h _ (List.prefix_refl _)⟩
  · rintro ⟨hstays, hrange⟩ first hfirst
    rcases List.prefix_concat_iff.1 hfirst with rfl | hfirst
    · exact hrange
    · exact hstays first hfirst

/-- What a sum knows is in range. -/
theorem inRange_of_knows {cells : List (Option Int64)} {acc : Accumulator} (hfn : acc.fn = .sum)
    (h : acc.Knows cells) : InRange (present cells).sum := by
  match acc, hfn with
  | sum none, _ =>
    rw [show present cells = [] from h, List.sum_nil]
    exact inRange_zero
  | sum (some total), _ =>
    rw [← h.2]
    exact inRange_toInt total

/-- A sum that is refused is out of range. -/
theorem not_inRange_of_addChecked? {total i : Int64} (h : addChecked? total i = none) :
    ¬ InRange (total.toInt + i.toInt) := by
  intro hrange
  unfold InRange at hrange
  simp only [addChecked?, if_pos hrange] at h
  cases h

end Accumulator

namespace Grouping

open Accumulator

variable {g blank : Grouping} {child : Schema} {row : Row} {rows : List Row}

/-! ## Folding rows -/

/-- Every sum stays in range on the way. -/
def AllInRange (blank : Grouping) (rows : List Row) : Prop :=
  ∀ key, StaysInRange (present (blank.cellsOf key rows))

theorem allInRange_nil (blank : Grouping) : blank.AllInRange [] := by
  intro key first hfirst
  rw [show present (blank.cellsOf key []) = [] from rfl] at hfirst
  rw [List.prefix_nil.1 hfirst, List.sum_nil]
  exact inRange_zero

/-- If one more row can be taken, every sum still stays in range. -/
theorem AllInRange.concat (h : blank.AllInRange rows) (hfn : blank.fn = .sum)
    (hsummary : Summary blank (rows ++ [row]) g) {key : GroupKey} {cell : Option Int64}
    (hkey : blank.key row = .ok key) (hcell : blank.cell row = .ok cell) :
    blank.AllInRange (rows ++ [row]) := by
  intro k
  obtain ⟨hkfn, hknows⟩ := hsummary.accumulator_knows k
  have hrange := inRange_of_knows (hkfn.trans hfn) hknows
  rw [cellsOf_append hkey hcell] at hrange ⊢
  by_cases hk : key = k
  · rw [if_pos hk] at hrange ⊢
    cases cell with
    | none =>
      rw [present_none]
      exact h k
    | some i =>
      rw [present_some] at hrange ⊢
      exact staysInRange_concat.2 ⟨h k, hrange⟩
  · rw [if_neg hk, List.append_nil]
    exact h k

/-- A cell that is refused takes the sum of its group out of range. -/
theorem Summary.not_staysInRange (h : Summary blank rows g) {key : GroupKey} {cell : Option Int64}
    {e : StreamError} (hkey : blank.key row = .ok key) (hcell : blank.cell row = .ok cell)
    (hacc : (g.accumulator key).merge cell = .error e) (rest : List Row) :
    (∃ total i, e = .sumOverflow total i) ∧ blank.fn = .sum ∧
      ¬ blank.AllInRange (rows ++ row :: rest) := by
  obtain ⟨hfn, hknows⟩ := h.accumulator_knows key
  obtain ⟨total, i, hsum, rfl, hadd, rfl⟩ := Accumulator.merge_eq_error_iff.1 hacc
  rw [hsum] at hfn hknows
  refine ⟨⟨total, i, rfl⟩, hfn.symm, fun hrange => ?_⟩
  -- the cells of the group up to the refused one
  have hsplit : blank.cellsOf key (rows ++ row :: rest) =
      blank.cellsOf key (rows ++ [row]) ++ blank.cellsOf key rest := by
    unfold cellsOf
    rw [← List.filterMap_append, List.append_assoc]
    rfl
  have hfirst : present (blank.cellsOf key rows) ++ [i.toInt] <+:
      present (blank.cellsOf key (rows ++ row :: rest)) := by
    rw [hsplit, cellsOf_append hkey hcell, if_pos rfl, present_append, present_some]
    exact List.prefix_append _ _
  have hrange' := hrange key _ hfirst
  rw [List.sum_append, List.sum_singleton, ← hknows.2] at hrange'
  exact not_inRange_of_addChecked? hadd hrange'

/-- Rows of the columns are folded into their groups if every sum stays in range on the way, and are
given up with an overflow if one does not. -/
theorem fold_exact (hplan : blank.Planned child) (hblank : blank.groups = [])
    (hrows : ∀ row ∈ rows, row.Conforms child) :
    (∃ g, rows.foldlM merge blank = .ok g ∧ Summary blank rows g ∧
        (blank.fn = .sum → blank.AllInRange rows)) ∨
      ∃ total i, rows.foldlM merge blank = .error (.sumOverflow total i) ∧ blank.fn = .sum ∧
        ¬ blank.AllInRange rows := by
  -- the rows that are folded, and those that are still to be folded
  suffices go : ∀ rest before g, Summary blank before g →
      (blank.fn = .sum → blank.AllInRange before) → (∀ row ∈ rest, row.Conforms child) →
      (∃ g', rest.foldlM merge g = .ok g' ∧ Summary blank (before ++ rest) g' ∧
          (blank.fn = .sum → blank.AllInRange (before ++ rest))) ∨
        ∃ total i, rest.foldlM merge g = .error (.sumOverflow total i) ∧ blank.fn = .sum ∧
          ¬ blank.AllInRange (before ++ rest) from
    go rows [] blank (Summary.start hblank) (fun _ => allInRange_nil blank) hrows
  intro rest
  induction rest with
  | nil =>
    intro before g h hrange _
    rw [List.append_nil]
    exact .inl ⟨g, rfl, h, hrange⟩
  | cons row rest ih =>
    intro before g h hrange hrest
    obtain ⟨key, cell, hkey, hcell, ⟨g', hmerge, h'⟩ | ⟨e, hacc, hmerge⟩⟩ :=
      h.step hplan (hrest row List.mem_cons_self)
    · rw [List.foldlM_cons, hmerge, show before ++ row :: rest = (before ++ [row]) ++ rest by simp]
      exact ih (before ++ [row]) g' h' (fun hfn => (hrange hfn).concat hfn h' hkey hcell)
        fun row hrow => hrest row (List.mem_cons_of_mem _ hrow)
    · obtain ⟨⟨total, i, rfl⟩, hfn, hout⟩ := h.not_staysInRange hkey hcell hacc rest
      refine .inr ⟨total, i, ?_, hfn, hout⟩
      rw [List.foldlM_cons, hmerge]
      rfl

/-! ## The cells of a group are the numbers of its rows -/

/-- The key of a row is the one by its group column. -/
theorem key_eq {key : GroupKey} (hkey : blank.key row = .ok key) :
    GroupKey.ofRow (blank.group.map Prod.fst) row = key := by
  unfold Grouping.key at hkey
  unfold GroupKey.ofRow
  cases hgroup : blank.group with
  | none =>
    rw [hgroup] at hkey
    exact Except.ok.inj hkey
  | some group =>
    obtain ⟨index, type⟩ := group
    rw [hgroup] at hkey
    by_cases hshort : row.length ≤ index
    · simp [hshort] at hkey
    · simp only [if_neg hshort] at hkey
      show (match row.get? index with | some v => GroupKey.value v | none => GroupKey.absent) = key
      cases hv : row.get? index <;> rw [hv] at hkey <;> exact Except.ok.inj hkey

/-- The cell of a row is the integer in its aggregated column, unless rows are counted. -/
theorem cell_integer (hfn : blank.fn ≠ .count) {cell : Option Int64}
    (hcell : blank.cell row = .ok cell) : cell.map Int64.toInt = row.integer? blank.field := by
  unfold Grouping.cell at hcell
  rw [if_neg hfn] at hcell
  unfold Row.integer?
  cases hv : row.get? blank.field with
  | none =>
    rw [hv] at hcell
    cases hcell
    rfl
  | some v =>
    rw [hv] at hcell
    -- a string stands for no number, in whatever column
    cases hinput : blank.inputType with
    | str =>
      rw [hinput] at hcell
      cases hcell
    | int =>
      rw [hinput] at hcell
      cases v with
      | int i =>
        cases hcell
        rfl
      | str s => cases hcell

/-- A group takes a cell of each of its rows. -/
theorem length_cellsOf (hreads : ∀ row ∈ rows, blank.Reads row) (key : GroupKey) :
    (blank.cellsOf key rows).length =
      (GroupKey.rowsOf (blank.group.map Prod.fst) key rows).length := by
  induction rows with
  | nil => rfl
  | cons row rows ih =>
    have hrest := ih fun row hrow => hreads row (List.mem_cons_of_mem _ hrow)
    obtain ⟨k, cell, hkey, hcell⟩ := hreads row List.mem_cons_self
    unfold cellsOf GroupKey.rowsOf at hrest ⊢
    rw [List.filterMap_cons, List.filter_cons, key_eq hkey]
    by_cases hk : k = key
    · simp [hkey, hcell, hk, hrest]
    · simp [hkey, hcell, hk, hrest]

/-- The numbers that a group takes are those in the aggregated column of its rows. -/
theorem present_cellsOf (hreads : ∀ row ∈ rows, blank.Reads row) (hfn : blank.fn ≠ .count)
    (key : GroupKey) : present (blank.cellsOf key rows) =
      Row.integers blank.field (GroupKey.rowsOf (blank.group.map Prod.fst) key rows) := by
  induction rows with
  | nil => rfl
  | cons row rows ih =>
    have hrest := ih fun row hrow => hreads row (List.mem_cons_of_mem _ hrow)
    obtain ⟨k, cell, hkey, hcell⟩ := hreads row List.mem_cons_self
    have hinteger := cell_integer hfn hcell
    unfold cellsOf present GroupKey.rowsOf Row.integers at hrest ⊢
    rw [List.filterMap_cons, List.filter_cons, key_eq hkey]
    by_cases hk : k = key
    · simp [hkey, hcell, hk, hrest, List.filterMap_cons, hinteger]
    · simp [hkey, hcell, hk, hrest]

/-- A key has a group exactly if a row has the key. -/
theorem Summary.mem_keys_iff (h : Summary blank rows g) (hreads : ∀ row ∈ rows, blank.Reads row)
    (key : GroupKey) :
    key ∈ g.groups.map Prod.fst ↔
      ∃ row ∈ rows, GroupKey.ofRow (blank.group.map Prod.fst) row = key := by
  have hlength := length_cellsOf hreads key
  have hkeyed : blank.cellsOf key rows ≠ [] ↔
      ∃ row ∈ rows, GroupKey.ofRow (blank.group.map Prod.fst) row = key := by
    rw [← List.length_pos_iff, hlength, List.length_pos_iff, GroupKey.rowsOf, Ne,
      List.filter_eq_nil_iff]
    simp
  rw [← hkeyed]
  constructor
  · intro hmem
    obtain ⟨⟨k, acc⟩, hgroup, rfl⟩ := List.mem_map.1 hmem
    exact (h.of_some ((mem_iff_lookup h.nodup k acc).1 hgroup)).2.2
  · intro hne
    cases hlookup : g.groups.lookup key with
    | none => exact absurd (h.of_none hlookup) hne
    | some acc =>
      exact List.mem_map.2 ⟨(key, acc), (mem_iff_lookup h.nodup key acc).2 hlookup, rfl⟩

/-- The answer of a group is the function of its rows. -/
theorem Summary.value_eq (h : Summary blank rows g) (hreads : ∀ row ∈ rows, blank.Reads row)
    (hfew : rows.length < 2 ^ 63) {key : GroupKey} {acc : Accumulator}
    (hmem : (key, acc) ∈ g.groups) :
    acc.value.map Int64.toInt =
      blank.fn.reduce (GroupKey.rowsOf (blank.group.map Prod.fst) key rows).length
        (Row.integers blank.field (GroupKey.rowsOf (blank.group.map Prod.fst) key rows)) := by
  obtain ⟨hfn, hknows, -⟩ := h.of_some ((mem_iff_lookup h.nodup key acc).1 hmem)
  have hlength := length_cellsOf hreads key
  have hgroup : (blank.cellsOf key rows).length < 2 ^ 63 := by
    have hle : (GroupKey.rowsOf (blank.group.map Prod.fst) key rows).length ≤ rows.length :=
      List.length_filter_le _ _
    omega
  rw [value_of_knows hknows hgroup, hfn, hlength]
  -- a count does not look at the numbers
  by_cases hcount : blank.fn = .count
  · rw [hcount]
    rfl
  · rw [present_cellsOf hreads hcount key]

end Grouping

namespace Aggregate

open Accumulator

/-- The rows `answer` are those of the groups of `rows`: there is one for each key that occurs, with
the cell of the key, if the rows have a group column, and the function of the group. -/
def Reduced (fn : AggregateFn) (field : Nat) (groupField : Option Nat) (rows answer : List Row) :
    Prop :=
  ∃ keys : List GroupKey, keys.Nodup ∧
    (∀ key, key ∈ keys ↔ ∃ row ∈ rows, GroupKey.ofRow groupField row = key) ∧
    List.Forall₂ (fun key row => ∃ cell : Option Int64,
      row.cells = key.cells ++ [cell.map Value.int] ∧
      cell.map Int64.toInt = fn.reduce (GroupKey.rowsOf groupField key rows).length
        (Row.integers field (GroupKey.rowsOf groupField key rows))) keys answer

/-- Adding up the numbers of some group one by one leaves the 64-bit integers on the way. -/
def LeavesRange (field : Nat) (groupField : Option Nat) (rows : List Row) : Prop :=
  ∃ key first, first <+: Row.integers field (GroupKey.rowsOf groupField key rows) ∧
    ¬ InRange first.sum

variable {b : Aggregate Unit} {child : Schema} {rows : List Row}

/-- The row of a group has the cell of its key and the answer of its accumulator. -/
theorem cells_answerRow (schema : Schema) (key : GroupKey) (acc : Accumulator) :
    (Grouping.answerRow schema key acc).cells = key.cells ++ [acc.value.map Value.int] := by
  have hanswer : (acc.value.map Value.int).map Value.truncated = acc.value.map Value.int := by
    cases acc.value <;> rfl
  cases key <;> simp [Grouping.answerRow, Grouping.answerValues, GroupKey.cells, hanswer]

variable [Grouping.Listing]

/-- The rows of the groups are those of grouping and reducing at once. -/
theorem reduced_of_summary {blank g : Grouping} (h : Grouping.Summary blank rows g)
    (hreads : ∀ row ∈ rows, blank.Reads row) (hfew : rows.length < 2 ^ 63) (schema : Schema) :
    Reduced blank.fn blank.field (blank.group.map Prod.fst) rows
      (g.listed.map fun (key, acc) => Grouping.answerRow schema key acc) := by
  have hkeys := g.listed_perm.map Prod.fst
  refine ⟨g.listed.map Prod.fst, hkeys.nodup_iff.2 h.nodup,
    fun key => hkeys.mem_iff.trans (h.mem_keys_iff hreads key), ?_⟩
  rw [List.forall₂_map_left_iff, List.forall₂_map_right_iff, List.forall₂_same]
  rintro ⟨key, acc⟩ hmem
  exact ⟨acc.value, cells_answerRow schema key acc,
    h.value_eq hreads hfew (Grouping.mem_listed.1 hmem)⟩

/-- Over rows that conform to the columns of the child, an aggregate answers with the rows of the
groups, unless a sum leaves its range on the way; then it fails with an overflow. -/
theorem answer_exact (h : b.WellSet child) (hrows : ∀ row ∈ rows, row.Conforms child)
    (hfew : rows.length < 2 ^ 63) :
    (∃ g answer, b.answer ⟨rows, none⟩ = .ok (g, answer) ∧
        Reduced b.fn b.field b.groupField rows answer ∧
        ¬ (b.fn = .sum ∧ LeavesRange b.field b.groupField rows)) ∨
      ∃ total i, b.answer ⟨rows, none⟩ = .error (.sumOverflow total i) ∧ b.fn = .sum ∧
        LeavesRange b.field b.groupField rows := by
  obtain ⟨hplan, hblank, hschema⟩ := planned_of_wellSet h
  -- the settings of the grouping are those of the aggregate
  obtain ⟨input, found, -, -, hmade, -⟩ := of_wellSet h
  obtain ⟨-, group, hsettings, hgroupField, -⟩ := of_make_grouping hmade
  have hfn : b.blank.fn = b.fn := by rw [hsettings]
  have hfield : b.blank.field = b.field := by rw [hsettings]
  have hgroup : b.blank.group.map Prod.fst = b.groupField := by rw [hsettings, hgroupField]
  have hreads : ∀ row ∈ rows, b.blank.Reads row :=
    fun row hrow => Grouping.reads_of_conforms hplan (hrows row hrow)
  -- the sums of the grouping are those of the numbers of the groups
  have hleaves : b.fn = .sum →
      (LeavesRange b.field b.groupField rows ↔ ¬ b.blank.AllInRange rows) := by
    intro hsum
    have hcount : b.blank.fn ≠ .count := by
      rw [hfn, hsum]
      decide
    unfold LeavesRange Grouping.AllInRange StaysInRange
    simp only [Grouping.present_cellsOf hreads hcount, hfield, hgroup]
    simp only [not_forall, exists_prop]
  unfold answer
  rw [Script.foldM_of_ends rfl]
  rcases Grouping.fold_exact hplan hblank hrows with ⟨g, hfold, hsummary, hrange⟩ |
    ⟨total, i, hfold, hsum, hout⟩
  · refine .inl ⟨g, g.listed.map fun (key, acc) => Grouping.answerRow b.schema key acc, ?_, ?_, ?_⟩
    · rw [hfold]
      simp only [bind, Except.bind, Grouping.rows_eq hsummary hplan hrows hschema]
      rfl
    · have hreduced := reduced_of_summary hsummary hreads hfew b.schema
      rw [hfn, hfield, hgroup] at hreduced
      exact hreduced
    · rintro ⟨hsum, hout⟩
      exact (hleaves hsum).1 hout (hrange (hfn.trans hsum))
  · have hsum' : b.fn = .sum := hfn.symm.trans hsum
    refine .inr ⟨total, i, ?_, hsum', (hleaves hsum').2 hout⟩
    rw [hfold]
    rfl

end Aggregate

end RowStream
