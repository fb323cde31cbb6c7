import RowStream.Proofs.Aggregate.Batch

/-!
# `RowStream.Proofs.Aggregate.Refused` — taking rows in place, and why they are refused

In place, the key of a row is entered with an empty accumulator before the cell of the row is folded,
which may fail. Only a sum that has a total can refuse a cell, so that no empty group is left behind:
a row that is refused changes nothing. Nothing is known here of the rows; which of them are refused
is said by the row, the settings and the rows that were taken before.

## Contents
- `Grouping.take`, `take_eq` — taking a row in place, and that a refused row changes nothing.
- `reads_or_refused`, `key_fails_iff`, `cell_fails_iff`, `of_merge` — what a row needs to be taken.
- `Grouping.Refuses`, `merge_fails_iff` — why rows are refused.
-/

namespace RowStream

namespace Grouping

open Accumulator

variable {g g' blank : Grouping} {row : Row} {kept : List Row}

/-! ## Taking a row in place -/

/-- The groups with one for the key; if it is new, it begins with an empty accumulator. -/
def enter (g : Grouping) (key : GroupKey) : Grouping :=
  { g with groups := replace key (g.accumulator key) g.groups }

/-- Takes a row in place. Its key has a group before the cell of the row is folded, and the folding
may fail. -/
def take (g : Grouping) (row : Row) : Except StreamError Unit × Grouping :=
  if row.length ≤ g.field then (.error (.fieldOutOfRange .aggregate g.field row.length), g)
  else
    match g.key row, g.cell row with
    | .error e, _ => (.error e, g)
    | .ok _, .error e => (.error e, g)
    | .ok key, .ok cell =>
      let entered := g.enter key
      match (entered.accumulator key).merge cell with
      | .error e => (.error e, entered)
      | .ok acc => (.ok (), { entered with groups := replace key acc entered.groups })

/-- Of two accumulators that are put in one place, the second stays. -/
theorem replace_replace (key : GroupKey) (first second : Accumulator)
    (groups : List (GroupKey × Accumulator)) :
    replace key second (replace key first groups) = replace key second groups := by
  induction groups with
  | nil => simp [replace]
  | cons group groups ih =>
    obtain ⟨k, a⟩ := group
    by_cases hk : k = key
    · simp [replace, hk]
    · simp [replace, hk, ih]

/-- An accumulator that is put where it was found changes nothing. -/
theorem replace_of_lookup {key : GroupKey} {acc : Accumulator}
    {groups : List (GroupKey × Accumulator)} (h : groups.lookup key = some acc) :
    replace key acc groups = groups := by
  induction groups with
  | nil => simp at h
  | cons group groups ih =>
    obtain ⟨k, a⟩ := group
    rw [List.lookup_cons] at h
    by_cases hk : k = key
    · subst hk
      simp only [beq_self_eq_true, Option.some.injEq] at h
      rw [replace, if_pos rfl, h]
    · rw [show (key == k) = false by simpa using Ne.symm hk] at h
      rw [replace, if_neg hk, ih h]

/-- A key that is entered keeps its accumulator. -/
theorem accumulator_enter (g : Grouping) (key : GroupKey) :
    (g.enter key).accumulator key = g.accumulator key := by
  show ((replace key (g.accumulator key) g.groups).lookup key).getD _ = _
  rw [lookup_replace, if_pos rfl]
  rfl

/-- A cell is only refused by a group that is there: an empty accumulator takes every cell. -/
theorem enter_of_refused {key : GroupKey} {cell : Option Int64} {e : StreamError}
    (h : (g.accumulator key).merge cell = .error e) : g.enter key = g := by
  obtain ⟨total, i, hsum, -, -, -⟩ := Accumulator.merge_eq_error_iff.1 h
  have hfound : g.groups.lookup key = some (sum (some total)) := by
    unfold accumulator at hsum
    cases hlookup : g.groups.lookup key with
    | some acc =>
      rw [hlookup] at hsum
      exact congrArg some hsum
    | none =>
      rw [hlookup] at hsum
      cases hfn : g.fn <;> rw [hfn] at hsum <;> cases hsum
  unfold enter
  rw [hsum, replace_of_lookup hfound]

/-- A row has what it needs to be folded, or it is refused at once, before anything is entered. -/
theorem reads_or_refused (g : Grouping) (row : Row) :
    (g.field < row.length ∧ g.Reads row) ∨
      ∃ e, g.merge row = .error e ∧ g.take row = (.error e, g) ∧
        (row.length ≤ g.field ∨ (∃ e, g.key row = .error e) ∨ ∃ e, g.cell row = .error e) := by
  unfold merge take
  by_cases hlength : row.length ≤ g.field
  · rw [if_pos hlength, if_pos hlength]
    exact .inr ⟨_, rfl, rfl, .inl hlength⟩
  rw [if_neg hlength, if_neg hlength]
  cases hkey : g.key row with
  | error e => exact .inr ⟨e, rfl, rfl, .inr (.inl ⟨e, rfl⟩)⟩
  | ok key =>
    cases hcell : g.cell row with
    | error e => exact .inr ⟨e, rfl, rfl, .inr (.inr ⟨e, rfl⟩)⟩
    | ok cell => exact .inl ⟨Nat.not_le.1 hlength, key, cell, hkey, hcell⟩

/-- In place, a row that is refused changes nothing, and any other is taken. -/
theorem take_eq (g : Grouping) (row : Row) :
    g.take row = match g.merge row with
      | .ok g' => (.ok (), g')
      | .error e => (.error e, g) := by
  obtain ⟨hlength, key, cell, hkey, hcell⟩ | ⟨e, hmerge, htake, -⟩ := reads_or_refused g row
  · rw [merge_eq hlength hkey hcell]
    unfold take
    rw [if_neg (Nat.not_le.2 hlength), hkey, hcell]
    simp only [accumulator_enter]
    cases hacc : (g.accumulator key).merge cell with
    | error e => simp only [Except.map, enter_of_refused hacc]
    | ok acc =>
      simp only [Except.map]
      unfold enter
      simp only [replace_replace]
  · rw [htake, hmerge]

/-! ## Why rows are refused -/

/-- Why a row is refused after the rows `kept` were taken. -/
inductive Refuses (fn : AggregateFn) (field : Nat) (groupField : Option Nat) (kept : List Row)
    (row : Row) : Prop where
  /-- The row has no aggregated column. -/
  | field : row.length ≤ field → Refuses fn field groupField kept row
  /-- The row has no group column. -/
  | group {index : Nat} : groupField = some index → row.length ≤ index →
    Refuses fn field groupField kept row
  /-- The aggregated cell is a string, and rows are not counted. -/
  | text {s : String} : fn ≠ .count → row.get? field = some (.str s) →
    Refuses fn field groupField kept row
  /-- The sum of the group and the aggregated cell do not add up to a 64-bit integer. -/
  | sum {i : Int64} : fn = .sum → row.get? field = some (.int i) →
    ¬ InRange ((Row.integers field
      (GroupKey.rowsOf groupField (GroupKey.ofRow groupField row) kept)).sum + i.toInt) →
    Refuses fn field groupField kept row

/-- A row has no key exactly if it has no group column where there should be one. -/
theorem key_fails_iff :
    (∃ e, g.key row = .error e) ↔
      ∃ index, g.group.map Prod.fst = some index ∧ row.length ≤ index := by
  unfold key
  cases hgroup : g.group with
  | none => simp
  | some group =>
    obtain ⟨index, type⟩ := group
    by_cases hshort : row.length ≤ index
    · simp [hshort]
    · cases hv : row.get? index <;> simp [hshort, hv]

/-- A row has no cell for the function exactly if there is a string in its place, which can only be
counted. -/
theorem cell_fails_iff (hsupports : g.fn.supports g.inputType = true) :
    (∃ e, g.cell row = .error e) ↔ g.fn ≠ .count ∧ ∃ s, row.get? g.field = some (.str s) := by
  unfold cell
  by_cases hcount : g.fn = .count
  · simp [hcount]
  rw [if_neg hcount]
  -- only integers are aggregated by another function
  have hinput : g.inputType = .int := by
    cases htype : g.inputType with
    | int => rfl
    | str =>
      rw [htype] at hsupports
      exact absurd (eq_of_beq hsupports) hcount
  cases hv : row.get? g.field with
  | none => simp
  | some v =>
    rw [hinput]
    cases v with
    | int i => simp [numeric, Value.asInt, Except.mapError, Functor.map, Except.map]
    | str s => simp [numeric, Value.asInt, Except.mapError, Functor.map, Except.map, hcount]

/-- A row that is taken has an aggregated column, a key and a cell, and the accumulator of its group
takes the cell. -/
theorem of_merge (h : g.merge row = .ok g') :
    g.field < row.length ∧ ∃ key cell acc, g.key row = .ok key ∧ g.cell row = .ok cell ∧
      (g.accumulator key).merge cell = .ok acc ∧
      g' = { g with groups := replace key acc g.groups } := by
  obtain ⟨hlength, key, cell, hkey, hcell⟩ | ⟨e, hmerge, -⟩ := reads_or_refused g row
  · rw [merge_eq hlength hkey hcell] at h
    cases hacc : (g.accumulator key).merge cell with
    | error e =>
      rw [hacc] at h
      cases h
    | ok acc =>
      rw [hacc] at h
      exact ⟨hlength, key, cell, acc, hkey, hcell, hacc, (Except.ok.inj h).symm⟩
  · rw [hmerge] at h
    cases h

/-- The cell of a row is an integer exactly if its aggregated column is, unless rows are counted. -/
theorem cell_some_iff (hfn : blank.fn ≠ .count) {cell : Option Int64}
    (hcell : blank.cell row = .ok cell) (i : Int64) :
    cell = some i ↔ row.get? blank.field = some (.int i) := by
  have hinteger := cell_integer hfn hcell
  unfold Row.integer? at hinteger
  constructor
  · rintro rfl
    cases hv : row.get? blank.field with
    | none => simp [hv] at hinteger
    | some v =>
      cases v with
      | str s => simp [hv] at hinteger
      | int j =>
        simp only [hv, Option.map_some, Option.some.injEq] at hinteger
        rw [Int64.toInt_inj.1 hinteger]
  · intro hv
    rw [hv] at hinteger
    obtain ⟨j, rfl, hj⟩ := Option.map_eq_some_iff.1 hinteger
    rw [Int64.toInt_inj.1 hj]

/-- The accumulator of a group refuses a cell if the sum of the rows of the group and the cell leave
the 64-bit integers. -/
theorem accumulator_refuses_iff (h : Summary blank kept g)
    (hreads : ∀ row ∈ kept, blank.Reads row) {key : GroupKey} {cell : Option Int64}
    (hkey : blank.key row = .ok key) (hcell : blank.cell row = .ok cell) :
    (∃ e, (g.accumulator key).merge cell = .error e) ↔
      blank.fn = .sum ∧ ∃ i, row.get? blank.field = some (.int i) ∧
        ¬ InRange ((Row.integers blank.field (GroupKey.rowsOf (blank.group.map Prod.fst)
          (GroupKey.ofRow (blank.group.map Prod.fst) row) kept)).sum + i.toInt) := by
  obtain ⟨hfn, hknows⟩ := h.accumulator_knows key
  rw [key_eq hkey]
  constructor
  · rintro ⟨e, hacc⟩
    obtain ⟨total, i, hsum, rfl, hadd, -⟩ := Accumulator.merge_eq_error_iff.1 hacc
    rw [hsum] at hfn hknows
    have hcount : blank.fn ≠ .count := by
      rw [← hfn]
      exact nofun
    refine ⟨hfn.symm, i, (cell_some_iff hcount hcell i).1 rfl, ?_⟩
    rw [← present_cellsOf hreads hcount key, ← hknows.2]
    exact not_inRange_of_addChecked? hadd
  · rintro ⟨hsum, i, hi, hout⟩
    have hcount : blank.fn ≠ .count := by
      rw [hsum]
      decide
    obtain rfl : cell = some i := (cell_some_iff hcount hcell i).2 hi
    cases hacc : (g.accumulator key).merge (some i) with
    | error e => exact ⟨e, rfl⟩
    | ok acc =>
      -- an accumulator that took the cell would know a sum in range
      obtain ⟨hfn', hknows'⟩ := Accumulator.knows_merge hknows hacc
      have hrange := inRange_of_knows ((hfn'.trans hfn).trans hsum) hknows'
      rw [present_some, List.sum_append, List.sum_singleton,
        present_cellsOf hreads hcount key] at hrange
      exact absurd hrange hout

/-- After the rows `kept`, a row is refused exactly for one of these reasons. -/
theorem merge_fails_iff (hsupports : blank.fn.supports blank.inputType = true)
    (h : Summary blank kept g) (hreads : ∀ row ∈ kept, blank.Reads row) (row : Row) :
    (∃ e, g.merge row = .error e) ↔
      Refuses blank.fn blank.field (blank.group.map Prod.fst) kept row := by
  -- the settings decide the key and the cell
  have hfield : g.field = blank.field := by rw [h.settings]
  have hkeys : g.key row = blank.key row := by rw [h.settings]; rfl
  have hcells : g.cell row = blank.cell row := by rw [h.settings]; rfl
  constructor
  · rintro ⟨e, hmerge⟩
    obtain ⟨hlength, key, cell, hkey, hcell⟩ | ⟨-, -, -, hshort | hkey | hcell⟩ :=
      reads_or_refused g row
    · rw [merge_eq hlength hkey hcell] at hmerge
      cases hacc : (g.accumulator key).merge cell with
      | ok acc =>
        rw [hacc] at hmerge
        cases hmerge
      | error e =>
        obtain ⟨hsum, i, hi, hout⟩ := (accumulator_refuses_iff h hreads (hkeys ▸ hkey)
          (hcells ▸ hcell)).1 ⟨e, hacc⟩
        exact .sum hsum hi hout
    · exact .field (hfield ▸ hshort)
    · obtain ⟨index, hgroup, hshort⟩ := key_fails_iff.1 (hkeys ▸ hkey)
      exact .group hgroup hshort
    · obtain ⟨hcount, s, hs⟩ := (cell_fails_iff hsupports).1 (hcells ▸ hcell)
      exact .text hcount hs
  · intro hrefuses
    cases hmerge : g.merge row with
    | error e => exact ⟨e, rfl⟩
    | ok g' =>
      obtain ⟨hlength, key, cell, acc, hkey, hcell, hacc, -⟩ := of_merge hmerge
      rw [hfield] at hlength
      rw [hkeys] at hkey
      rw [hcells] at hcell
      cases hrefuses with
      | field hshort => omega
      | group hgroup hshort =>
        obtain ⟨e, herror⟩ := key_fails_iff.2 ⟨_, hgroup, hshort⟩
        rw [hkey] at herror
        cases herror
      | text hcount hs =>
        obtain ⟨e, herror⟩ := (cell_fails_iff hsupports).2 ⟨hcount, _, hs⟩
        rw [hcell] at herror
        cases herror
      | sum hsum hi hout =>
        obtain ⟨e, herror⟩ := (accumulator_refuses_iff h hreads hkey hcell).2 ⟨hsum, _, hi, hout⟩
        rw [hacc] at herror
        cases herror

end Grouping

end RowStream
