import Mathlib.Data.List.Nodup
import RowStream.Aggregate.Grouping
import RowStream.Proofs.Aggregate.Accumulate
import RowStream.Proofs.Row.Conforms

/-!
# `RowStream.Proofs.Aggregate.Groups` — groups as functions of the rows

Rows that conform to the columns for which a grouping was planned are only ever refused by a sum that
leaves its range. What comes of them does not depend on their order, but for the order of the groups.

## Contents
- `Grouping.Planned` — a grouping for given columns, and why it refuses no row of them.
- `Grouping.cellsOf`, `Grouping.Reads` — the cells that a group takes, and the rows that have one.
- `Grouping.Summary` — what is known of the groups of some rows.
- `Grouping.Overflows`, `fold_cases` — rows are folded into groups, unless a sum leaves its range.
- `groups_perm` — the same rows in another order have the same groups in another order.
- `Grouping.HasRoom`, `rows_of_row`, `rows_eq` — the rows of the groups.
- `Grouping.Keyed` — what is known of the keys of the groups, whatever the rows were.
-/

namespace RowStream.Grouping

/-! ## Rows of the columns -/

/-- The settings of a grouping are made for rows of the given columns. -/
structure Planned (g : Grouping) (child : Schema) : Prop where
  /-- The aggregated column is there. -/
  field_type : child.types[g.field]? = some g.inputType
  /-- The function takes its type. -/
  supports : g.fn.supports g.inputType = true
  /-- The group column is there, if there is one. -/
  group_type : ∀ {index type}, g.group = some (index, type) → child.types[index]? = some type

/-- The keys that rows of the columns can have. -/
def Expects (g : Grouping) : GroupKey → Prop
  | .ungrouped => g.group = none
  | .absent => ∃ index type, g.group = some (index, type)
  | .value v => ∃ index, g.group = some (index, v.type)

/-- The cells that rows give to the group of a key, in the order of the rows. -/
def cellsOf (g : Grouping) (key : GroupKey) (rows : List Row) : List (Option Int64) :=
  rows.filterMap fun row =>
    match g.key row, g.cell row with
    | .ok k, .ok cell => if k = key then some cell else none
    | _, _ => none

variable {g g' : Grouping} {child : Schema} {row : Row}

/-- An index with a type is one of the row. -/
theorem lt_length_of_type {index : Nat} {type : DataType} (hrow : row.Conforms child)
    (h : child.types[index]? = some type) : index < row.length := by
  obtain ⟨hlt, -⟩ := List.getElem?_eq_some_iff.1 h
  rw [hrow.length_eq, ← Schema.length_types]
  exact hlt

/-- A row of the columns has a key. -/
theorem key_of_conforms (h : g.Planned child) (hrow : row.Conforms child) :
    ∃ key, g.key row = .ok key ∧ g.Expects key := by
  unfold key
  cases hgroup : g.group with
  | none => exact ⟨.ungrouped, rfl, hgroup⟩
  | some group =>
    obtain ⟨index, type⟩ := group
    have htype := h.group_type hgroup
    simp only [if_neg (Nat.not_le.2 (lt_length_of_type hrow htype))]
    cases hv : row.get? index with
    | none => exact ⟨.absent, rfl, index, type, hgroup⟩
    | some v =>
      have hvt := hrow.type_eq hv
      rw [htype] at hvt
      cases hvt
      exact ⟨.value v, rfl, index, hgroup⟩

/-- A row of the columns has a cell that the function takes. -/
theorem cell_of_conforms (h : g.Planned child) (hrow : row.Conforms child) :
    ∃ cell, g.cell row = .ok cell := by
  unfold cell
  by_cases hcount : g.fn = .count
  · exact ⟨none, by rw [if_pos hcount]⟩
  rw [if_neg hcount]
  cases hv : row.get? g.field with
  | none => exact ⟨none, rfl⟩
  | some v =>
    have hvt := hrow.type_eq hv
    rw [h.field_type] at hvt
    -- strings can only be counted
    have hsupports := h.supports
    cases htype : g.inputType with
    | str => simp [htype, AggregateFn.supports, hcount] at hsupports
    | int =>
      rw [htype] at hvt
      cases v with
      | int i => exact ⟨some i, rfl⟩
      | str s => cases hvt

/-- The row has a key, and a cell that the function takes. -/
def Reads (g : Grouping) (row : Row) : Prop := ∃ key cell, g.key row = .ok key ∧ g.cell row = .ok cell

/-- A row of the columns has both. -/
theorem reads_of_conforms (h : g.Planned child) (hrow : row.Conforms child) : g.Reads row := by
  obtain ⟨key, hkey, -⟩ := key_of_conforms h hrow
  obtain ⟨cell, hcell⟩ := cell_of_conforms h hrow
  exact ⟨key, cell, hkey, hcell⟩

/-- Taking a row is taking its cell into the accumulator of its key. -/
theorem merge_eq {key : GroupKey} {cell : Option Int64} (hlength : g.field < row.length)
    (hkey : g.key row = .ok key) (hcell : g.cell row = .ok cell) :
    g.merge row = ((g.accumulator key).merge cell).map fun acc =>
      { g with groups := replace key acc g.groups } := by
  unfold merge
  rw [if_neg (Nat.not_le.2 hlength), hkey, hcell]
  cases hacc : (g.accumulator key).merge cell <;>
    simp [hacc, bind, Except.bind, Except.map, pure, Except.pure]

/-- So is taking a row of the columns, for which the settings decide the key and the cell. -/
theorem merge_of_conforms {blank : Grouping} (hplan : blank.Planned child)
    (hsettings : g = { blank with groups := g.groups }) (hrow : row.Conforms child) :
    ∃ key cell, blank.key row = .ok key ∧ blank.Expects key ∧ blank.cell row = .ok cell ∧
      g.merge row = ((g.accumulator key).merge cell).map fun acc =>
        { g with groups := replace key acc g.groups } := by
  obtain ⟨key, hkey, hexpects⟩ := key_of_conforms hplan hrow
  obtain ⟨cell, hcell⟩ := cell_of_conforms hplan hrow
  refine ⟨key, cell, hkey, hexpects, hcell, merge_eq ?_ ?_ ?_⟩
  · rw [hsettings]
    exact lt_length_of_type hrow hplan.field_type
  · rw [hsettings]
    exact hkey
  · rw [hsettings]
    exact hcell

/-! ## What is known of the groups -/

/-- What is known of the groups of some rows: there is one for each key, and its accumulator knows
the cells of that key. -/
structure Summary (blank : Grouping) (rows : List Row) (g : Grouping) : Prop where
  /-- The settings stay. -/
  settings : g = { blank with groups := g.groups }
  /-- No key has two groups. -/
  nodup : (g.groups.map Prod.fst).Nodup
  /-- A group knows the cells of its key, of which there are some. -/
  of_some : ∀ {key acc}, g.groups.lookup key = some acc →
    acc.fn = blank.fn ∧ acc.Knows (blank.cellsOf key rows) ∧ blank.cellsOf key rows ≠ []
  /-- A key without a group has no cells. -/
  of_none : ∀ {key}, g.groups.lookup key = none → blank.cellsOf key rows = []

/-- One more row gives a cell to the group of its key. -/
theorem cellsOf_append {blank : Grouping} {key : GroupKey} {cell : Option Int64}
    (hkey : blank.key row = .ok key) (hcell : blank.cell row = .ok cell) (k : GroupKey)
    (rows : List Row) :
    blank.cellsOf k (rows ++ [row]) =
      blank.cellsOf k rows ++ if key = k then [cell] else [] := by
  unfold cellsOf
  rw [List.filterMap_append]
  refine congrArg (_ ++ ·) ?_
  by_cases hk : key = k <;> simp [hkey, hcell, hk]

/-- The order of the rows is that of the cells. -/
theorem cellsOf_perm {blank : Grouping} {rows rows' : List Row}
    (h : (rows.map Row.bare).Perm (rows'.map Row.bare)) (key : GroupKey) :
    (blank.cellsOf key rows).Perm (blank.cellsOf key rows') := by
  -- neither the key nor the cell of a row depends on its names
  have hbare : ∀ rows : List Row, blank.cellsOf key rows = blank.cellsOf key (rows.map Row.bare) := by
    intro rows
    unfold cellsOf
    rw [List.filterMap_map]
    rfl
  rw [hbare rows, hbare rows']
  exact h.filterMap _

theorem keys_replace (key : GroupKey) (acc : Accumulator) (groups : List (GroupKey × Accumulator)) :
    (replace key acc groups).map Prod.fst =
      if key ∈ groups.map Prod.fst then groups.map Prod.fst else groups.map Prod.fst ++ [key] := by
  induction groups with
  | nil => rfl
  | cons group groups ih =>
    obtain ⟨k, a⟩ := group
    unfold replace
    by_cases hk : k = key
    · simp [hk]
    · rw [if_neg hk, List.map_cons, ih, List.map_cons]
      by_cases hmem : key ∈ groups.map Prod.fst
      · rw [if_pos hmem, if_pos (List.mem_cons_of_mem _ hmem)]
      · rw [if_neg hmem, if_neg (by simpa [Ne.symm hk] using hmem), List.cons_append]

namespace Summary

variable {blank : Grouping} {rows : List Row}

/-- Before the first row there is no group. -/
theorem start (h : blank.groups = []) : Summary blank [] blank where
  settings := rfl
  nodup := by simp [h]
  of_some := by
    intro key acc hkey
    simp [h] at hkey
  of_none := fun _ => rfl

/-- The accumulator that takes the next cell of a key knows those before it. -/
theorem accumulator_knows (h : Summary blank rows g) (key : GroupKey) :
    (g.accumulator key).fn = blank.fn ∧ (g.accumulator key).Knows (blank.cellsOf key rows) := by
  have hfn : g.fn = blank.fn := by rw [h.settings]
  unfold accumulator
  cases hlookup : g.groups.lookup key with
  | some acc => exact ⟨(h.of_some hlookup).1, (h.of_some hlookup).2.1⟩
  | none =>
    rw [h.of_none hlookup, hfn]
    exact ⟨Accumulator.fn_empty _, Accumulator.knows_empty _⟩

/-- One more row. -/
theorem merge (h : Summary blank rows g) {key : GroupKey} {cell : Option Int64} {acc : Accumulator}
    (hkey : blank.key row = .ok key) (hcell : blank.cell row = .ok cell)
    (hacc : (g.accumulator key).merge cell = .ok acc) :
    Summary blank (rows ++ [row]) { g with groups := replace key acc g.groups } where
  settings := by
    have hg := h.settings
    rw [hg]
  nodup := by
    rw [keys_replace]
    by_cases hmem : key ∈ g.groups.map Prod.fst
    · rw [if_pos hmem]
      exact h.nodup
    · rw [if_neg hmem]
      refine List.nodup_append.2 ⟨h.nodup, by simp, ?_⟩
      intro k hk k' hk' hkk
      exact hmem (List.mem_singleton.1 hk' ▸ hkk ▸ hk)
  of_some := by
    intro k a hk
    rw [lookup_replace] at hk
    rw [cellsOf_append hkey hcell]
    by_cases hkk : k = key
    · subst hkk
      rw [if_pos rfl] at hk ⊢
      cases hk
      -- the group of the key took the cell
      obtain ⟨hfn, hknows⟩ := h.accumulator_knows k
      obtain ⟨hfn', hknows'⟩ := Accumulator.knows_merge hknows hacc
      exact ⟨hfn'.trans hfn, hknows', by simp⟩
    -- the other groups are as they were
    · rw [if_neg hkk] at hk
      rw [if_neg (Ne.symm hkk), List.append_nil]
      exact h.of_some hk
  of_none := by
    intro k hk
    rw [lookup_replace] at hk
    rw [cellsOf_append hkey hcell]
    by_cases hkk : k = key
    · rw [if_pos hkk] at hk
      cases hk
    · rw [if_neg hkk] at hk
      rw [if_neg (Ne.symm hkk), List.append_nil]
      exact h.of_none hk

end Summary

/-! ## Folding rows -/

section Fold

variable {blank : Grouping} {rows : List Row}

/-- A row of the columns goes into the groups, or its cell takes a sum out of its range. -/
theorem Summary.step (h : Summary blank rows g) (hplan : blank.Planned child)
    (hrow : row.Conforms child) :
    ∃ key cell, blank.key row = .ok key ∧ blank.cell row = .ok cell ∧
      ((∃ g', g.merge row = .ok g' ∧ Summary blank (rows ++ [row]) g') ∨
        ∃ e, (g.accumulator key).merge cell = .error e ∧ g.merge row = .error e) := by
  obtain ⟨key, cell, hkey, -, hcell, hmerge⟩ := merge_of_conforms hplan h.settings hrow
  refine ⟨key, cell, hkey, hcell, ?_⟩
  cases hacc : (g.accumulator key).merge cell with
  | ok acc =>
    rw [hacc] at hmerge
    -- the summary holds of one row more
    exact .inl ⟨_, hmerge, h.merge hkey hcell hacc⟩
  | error e =>
    rw [hacc] at hmerge
    exact .inr ⟨e, rfl, hmerge⟩

/-- Where a sum leaves its range, the cells of its group do not fit. -/
theorem Summary.not_fits (h : Summary blank rows g) {key : GroupKey} {cell : Option Int64}
    {e : StreamError} (hkey : blank.key row = .ok key) (hcell : blank.cell row = .ok cell)
    (hacc : (g.accumulator key).merge cell = .error e) (rest : List Row) :
    ¬ Accumulator.Fits (blank.cellsOf key (rows ++ row :: rest)) := by
  intro hfits
  have hsplit : blank.cellsOf key (rows ++ row :: rest) =
      blank.cellsOf key (rows ++ [row]) ++ blank.cellsOf key rest := by
    unfold cellsOf
    rw [← List.filterMap_append, List.append_assoc]
    rfl
  rw [hsplit, cellsOf_append hkey hcell, if_pos rfl] at hfits
  obtain ⟨acc, hacc'⟩ := Accumulator.merge_of_fits (h.accumulator_knows key).2
    (Accumulator.fits_of_append hfits)
  rw [hacc] at hacc'
  cases hacc'

/-- Why rows are not folded into groups: a sum leaves its range, and the cells of its group do not
fit. -/
inductive Overflows (blank : Grouping) (rows : List Row) : StreamError → Prop where
  /-- The sum of a group and the next cell do not add up to a 64-bit integer. -/
  | sum {total i : Int64} {key : GroupKey} : blank.fn = .sum → addChecked? total i = none →
    ¬ Accumulator.Fits (blank.cellsOf key rows) → Overflows blank rows (.sumOverflow total i)

/-- Rows of the columns are folded into their groups, unless some group has a sum that leaves its
range on the way. -/
theorem fold_cases (hplan : blank.Planned child) (hblank : blank.groups = [])
    (hrows : ∀ row ∈ rows, row.Conforms child) :
    (∃ g, rows.foldlM merge blank = .ok g ∧ Summary blank rows g) ∨
      ∃ e, Overflows blank rows e ∧ rows.foldlM merge blank = .error e := by
  -- the rows that are folded, and those that are still to be folded
  suffices go : ∀ rest before g, Summary blank before g → (∀ row ∈ rest, row.Conforms child) →
      (∃ g', rest.foldlM merge g = .ok g' ∧ Summary blank (before ++ rest) g') ∨
        ∃ e, Overflows blank (before ++ rest) e ∧ rest.foldlM merge g = .error e from
    go rows [] blank (Summary.start hblank) hrows
  intro rest
  induction rest with
  | nil =>
    intro before g h _
    exact .inl ⟨g, rfl, by rwa [List.append_nil]⟩
  | cons row rest ih =>
    intro before g h hrest
    obtain ⟨key, cell, hkey, hcell, ⟨g', hmerge, h'⟩ | ⟨e, hacc, hmerge⟩⟩ :=
      h.step hplan (hrest row List.mem_cons_self)
    · rw [List.foldlM_cons, hmerge, show before ++ row :: rest = (before ++ [row]) ++ rest by simp]
      exact ih (before ++ [row]) g' h' fun row hrow => hrest row (List.mem_cons_of_mem _ hrow)
    · have hfits := h.not_fits hkey hcell hacc rest
      have hfn := (h.accumulator_knows key).1
      obtain ⟨total, i, hsum, -, hadd, rfl⟩ := Accumulator.merge_eq_error_iff.1 hacc
      rw [hsum] at hfn
      refine .inr ⟨_, .sum hfn.symm hadd hfits, ?_⟩
      rw [List.foldlM_cons, hmerge]
      rfl

end Fold

/-! ## The groups of rows in any order -/

section Order

variable {blank : Grouping} {rows rows' : List Row}

/-- The group of a key is decided by the rows, whatever their order. -/
theorem lookup_eq (h : Summary blank rows g) (h' : Summary blank rows' g')
    (hperm : (rows.map Row.bare).Perm (rows'.map Row.bare)) (key : GroupKey) :
    g.groups.lookup key = g'.groups.lookup key := by
  have hcells : (blank.cellsOf key rows).Perm (blank.cellsOf key rows') := cellsOf_perm hperm key
  -- a key has a group in both, or its rows gave no cell to either
  cases hkey : g.groups.lookup key with
  | none =>
    cases hkey' : g'.groups.lookup key with
    | none => rfl
    | some acc =>
      rw [h.of_none hkey] at hcells
      exact absurd hcells.nil_eq.symm (h'.of_some hkey').2.2
  | some acc =>
    obtain ⟨hfn, hknows, hsome⟩ := h.of_some hkey
    cases hkey' : g'.groups.lookup key with
    | none =>
      rw [h'.of_none hkey'] at hcells
      exact absurd hcells.eq_nil hsome
    | some acc' =>
      obtain ⟨hfn', hknows', -⟩ := h'.of_some hkey'
      rw [Accumulator.eq_of_knows (hfn.trans hfn'.symm) (Accumulator.knows_perm hcells hknows) hknows']

/-- Where no key has two groups, a group is the one that is looked up. -/
theorem mem_iff_lookup {groups : List (GroupKey × Accumulator)} (h : (groups.map Prod.fst).Nodup)
    (key : GroupKey) (acc : Accumulator) :
    (key, acc) ∈ groups ↔ groups.lookup key = some acc := by
  induction groups with
  | nil => simp
  | cons group groups ih =>
    obtain ⟨k, a⟩ := group
    obtain ⟨hk, hrest⟩ := List.nodup_cons.1 h
    rw [List.mem_cons, ih hrest, List.lookup_cons]
    by_cases hkk : key = k
    · subst hkk
      have hnone : groups.lookup key ≠ some acc := fun hsome =>
        hk (List.mem_map.2 ⟨(key, acc), (ih hrest).2 hsome, rfl⟩)
      simp [hnone, eq_comm]
    · rw [show (key == k) = false by simpa using hkk]
      simp [hkk]

/-- The same rows in another order have the same groups in another order. -/
theorem groups_perm (h : Summary blank rows g) (h' : Summary blank rows' g')
    (hperm : (rows.map Row.bare).Perm (rows'.map Row.bare)) : g.groups.Perm g'.groups := by
  refine (List.perm_ext_iff_of_nodup (List.Nodup.of_map _ h.nodup)
    (List.Nodup.of_map _ h'.nodup)).2 ?_
  rintro ⟨key, acc⟩
  rw [mem_iff_lookup h.nodup, mem_iff_lookup h'.nodup, lookup_eq h h' hperm]

end Order

/-! ## The rows of the groups -/

/-- The values that go into the row of a group. -/
def answerValues (key : GroupKey) (acc : Accumulator) : List (Option Value) :=
  match key with
  | .value v => [some v, acc.value.map Value.int]
  | .absent => [none, acc.value.map Value.int]
  | .ungrouped => [acc.value.map Value.int]

/-- The row of a group, with a string that is too long for a cell cut to size. -/
def answerRow (schema : Schema) (key : GroupKey) (acc : Accumulator) : Row :=
  { schema, cells := (answerValues key acc).map (Option.map Value.truncated) }

/-- A schema has columns for the row of a group with this key: one for the answer, and before it one
for the value of the key. -/
def HasRoom (schema : Schema) : GroupKey → Prop
  | .ungrouped => schema.types[0]? = some .int
  | .absent => schema.types[1]? = some .int
  | .value v => schema.types[0]? = some v.type ∧ schema.types[1]? = some .int

theorem types_schema (g : Grouping) : g.schema.types = (g.group.map Prod.snd).toList ++ [.int] := by
  unfold schema Schema.ofTypes Schema.types
  rw [List.map_map]
  exact List.map_id _

section Rows

variable {blank : Grouping} {schema : Schema} {rows : List Row}

/-- The values of a group fit the first columns of a schema that has room for its key. -/
theorem answerValues_fit {key : GroupKey} (h : HasRoom schema key) (acc : Accumulator) :
    (answerValues key acc).length ≤ schema.width ∧
      ∀ {i : Nat} {v : Value}, (answerValues key acc)[i]? = some (some v) →
        schema.types[i]? = some v.type := by
  -- the last value is the answer
  have hanswer : ∀ {v}, acc.value.map Value.int = some v → v.type = .int := by
    intro v hv
    obtain ⟨i, -, rfl⟩ := Option.map_eq_some_iff.1 hv
    rfl
  have hwidth : ∀ {index type}, schema.types[index]? = some type → index < schema.width := by
    intro index type htype
    rw [← Schema.length_types]
    exact (List.getElem?_eq_some_iff.1 htype).1
  unfold answerValues
  cases key with
  | ungrouped =>
    refine ⟨hwidth h, fun {i v} hv => ?_⟩
    match i with
    | 0 =>
      rw [hanswer (by simpa using hv)]
      exact h
    | i + 1 => simp at hv
  | absent =>
    refine ⟨hwidth h, fun {i v} hv => ?_⟩
    match i with
    | 0 => simp at hv
    | 1 =>
      rw [hanswer (by simpa using hv)]
      exact h
    | i + 2 => simp at hv
  | value w =>
    refine ⟨hwidth h.2, fun {i v} hv => ?_⟩
    match i with
    | 0 =>
      obtain rfl : w = v := by simpa using hv
      exact h.1
    | 1 =>
      rw [hanswer (by simpa using hv)]
      exact h.2
    | i + 2 => simp at hv

/-- The columns of the answer have room for the keys of the columns, and no more. -/
theorem hasRoom_of_expects (hschema : blank.schema.Agrees schema) {key : GroupKey}
    (hkey : blank.Expects key) (acc : Accumulator) :
    HasRoom schema key ∧ (answerValues key acc).length = schema.width := by
  have htypes : schema.types = (blank.group.map Prod.snd).toList ++ [.int] := by
    rw [← types_schema]
    exact hschema.symm
  rw [← Schema.length_types]
  cases key with
  | ungrouped =>
    rw [show blank.group = none from hkey] at htypes
    unfold HasRoom
    rw [htypes]
    exact ⟨rfl, rfl⟩
  | absent =>
    obtain ⟨index, type, hgroup⟩ := hkey
    rw [hgroup] at htypes
    unfold HasRoom
    rw [htypes]
    exact ⟨rfl, rfl⟩
  | value v =>
    obtain ⟨index, hgroup⟩ := hkey
    rw [hgroup] at htypes
    unfold HasRoom
    rw [htypes]
    exact ⟨⟨rfl, rfl⟩, rfl⟩

/-- A group with a key of the columns has a row, which conforms to the columns of the answer. -/
theorem row_eq (hschema : blank.schema.Agrees schema) {key : GroupKey} (hkey : blank.Expects key)
    (acc : Accumulator) :
    Grouping.row schema key acc = .ok (answerRow schema key acc) ∧
      (answerRow schema key acc).Conforms schema := by
  obtain ⟨hroom, hlength⟩ := hasRoom_of_expects hschema hkey acc
  obtain ⟨-, htypes⟩ := answerValues_fit hroom acc
  refine ⟨?_, Row.conforms_of_values hlength htypes⟩
  have hrow : Grouping.row schema key acc = Row.ofCells schema (answerValues key acc) := by
    cases key <;> rfl
  rw [hrow, Row.ofCells_eq hlength htypes]
  rfl

/-- The keys of the groups are those of the columns. -/
theorem Summary.expects (h : Summary blank rows g) (hplan : blank.Planned child)
    (hrows : ∀ row ∈ rows, row.Conforms child) {key : GroupKey} {acc : Accumulator}
    (hmem : (key, acc) ∈ g.groups) : blank.Expects key := by
  obtain ⟨-, -, hsome⟩ := h.of_some ((mem_iff_lookup h.nodup key acc).1 hmem)
  obtain ⟨cell, hcell⟩ := List.exists_mem_of_ne_nil _ hsome
  -- the cell comes from a row, whose key is the one of the group
  obtain ⟨row, hrow, hkeyed⟩ := List.mem_filterMap.1 hcell
  obtain ⟨key', hkey', hexpects⟩ := key_of_conforms hplan (hrows row hrow)
  obtain ⟨cell', hcell'⟩ := cell_of_conforms hplan (hrows row hrow)
  by_cases hkk : key' = key
  · exact hkk ▸ hexpects
  · simp [hkey', hcell', hkk] at hkeyed

variable [Listing]

/-- If every group has a row, these are the rows of the groups. -/
theorem rows_of_row (toRow : GroupKey → Accumulator → Row)
    (h : ∀ group ∈ g.groups, Grouping.row schema group.1 group.2 = .ok (toRow group.1 group.2)) :
    g.rows schema = .ok (g.listed.map fun (key, acc) => toRow key acc) := by
  have hall : ∀ groups : List (GroupKey × Accumulator),
      (∀ group ∈ groups, Grouping.row schema group.1 group.2 = .ok (toRow group.1 group.2)) →
      (groups.mapM fun group => Grouping.row schema group.1 group.2) =
        .ok (groups.map fun group => toRow group.1 group.2) := by
    intro groups
    induction groups with
    | nil =>
      intro _
      rfl
    | cons group groups ih =>
      intro hrows
      rw [List.mapM_cons, ih fun group hmem => hrows group (List.mem_cons_of_mem _ hmem)]
      simp only [hrows group List.mem_cons_self]
      rfl
  unfold Grouping.rows
  show (g.listed.mapM fun group => Grouping.row schema group.1 group.2).mapError _ = _
  rw [hall g.listed fun group hmem => h group (mem_listed.1 hmem)]
  rfl

/-- Groups with keys of the columns have rows. -/
theorem rows_of_expects (hexpects : ∀ group ∈ g.groups, blank.Expects group.1)
    (hschema : blank.schema.Agrees schema) :
    g.rows schema = .ok (g.listed.map fun (key, acc) => answerRow schema key acc) :=
  rows_of_row (answerRow schema) fun (key, acc) hmem => (row_eq hschema (hexpects (key, acc) hmem) acc).1

/-- All groups of rows of the columns have rows. -/
theorem rows_eq (h : Summary blank rows g) (hplan : blank.Planned child)
    (hrows : ∀ row ∈ rows, row.Conforms child) (hschema : blank.schema.Agrees schema) :
    g.rows schema = .ok (g.listed.map fun (key, acc) => answerRow schema key acc) :=
  rows_of_expects (fun _ hmem => h.expects hplan hrows hmem) hschema

end Rows

/-! ## The keys alone -/

/-- A grouping with the settings `blank`, whose groups have keys of the columns. -/
structure Keyed (blank g : Grouping) : Prop where
  /-- The settings stay. -/
  settings : g = { blank with groups := g.groups }
  /-- The keys are ones that rows of the columns can have. -/
  expects : ∀ group ∈ g.groups, blank.Expects group.1

/-- Before the first row there are no keys. -/
theorem keyed_blank {blank : Grouping} (h : blank.groups = []) : blank.Keyed blank where
  settings := rfl
  expects := by
    intro group hgroup
    rw [h] at hgroup
    cases hgroup

/-- A row of the columns brings no other key. -/
theorem Keyed.merge {blank : Grouping} (h : blank.Keyed g) (hplan : blank.Planned child)
    (hrow : row.Conforms child) (hmerge : g.merge row = .ok g') : blank.Keyed g' := by
  obtain ⟨key, cell, -, hexpects, -, heq⟩ := merge_of_conforms hplan h.settings hrow
  cases hacc : (g.accumulator key).merge cell with
  | error e =>
    rw [heq, hacc] at hmerge
    cases hmerge
  | ok acc =>
    rw [heq, hacc] at hmerge
    cases hmerge
    refine ⟨by rw [h.settings], fun group hgroup => ?_⟩
    have hkeys : group.1 ∈ (replace key acc g.groups).map Prod.fst := List.mem_map_of_mem hgroup
    rw [keys_replace] at hkeys
    -- the key is that of the row, or was there before
    have hcases : group.1 ∈ g.groups.map Prod.fst ∨ group.1 = key := by
      by_cases hmem : key ∈ g.groups.map Prod.fst
      · rw [if_pos hmem] at hkeys
        exact .inl hkeys
      · rw [if_neg hmem, List.mem_append, List.mem_singleton] at hkeys
        exact hkeys
    rcases hcases with hold | hnew
    · obtain ⟨group', hgroup', hsame⟩ := List.mem_map.1 hold
      exact hsame ▸ h.expects group' hgroup'
    · exact hnew ▸ hexpects

/-- A row of the columns is only refused by a sum that leaves its range. -/
theorem Keyed.overflow {blank : Grouping} (h : blank.Keyed g) (hplan : blank.Planned child)
    (hrow : row.Conforms child) {e : StreamError} (hmerge : g.merge row = .error e) :
    ∃ total i, e = .sumOverflow total i := by
  obtain ⟨key, cell, -, -, -, heq⟩ := merge_of_conforms hplan h.settings hrow
  cases hacc : (g.accumulator key).merge cell with
  | ok acc =>
    rw [heq, hacc] at hmerge
    cases hmerge
  | error e' =>
    rw [heq, hacc] at hmerge
    cases hmerge
    obtain ⟨total, i, -, -, -, rfl⟩ := Accumulator.merge_eq_error_iff.1 hacc
    exact ⟨total, i, rfl⟩

end RowStream.Grouping
