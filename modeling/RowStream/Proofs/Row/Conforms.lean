import Mathlib.Data.List.Basic
import RowStream.Row

/-!
# `RowStream.Proofs.Row.Conforms` — rows that fit their columns

What operators make of rows depends on the cells only: not on the names of the columns, and not on
the place where a row is stored.

## Contents
- `Row.set_eq_ok_iff`, `rebind_eq_ok_iff` — which values and which columns a row takes, and what it is then.
- `Row.Conforms` — rows whose cells have the types of their columns.
- `Conforms.of_cells`, `Conforms.append` — conforming is about cells and types, and concatenation.
- `Row.bare` — a row without names and without a place.
- `ofCells_eq_of_le`, `ofCells_eq`, `conforms_of_values` — values that fit their columns make a row,
  which conforms.
- `ofValues_eq_ok_iff` — no others do.
-/

namespace RowStream.Row

/-! ## What a row takes -/

/-- A value is put into a cell exactly if the column has its type, and nothing else changes. -/
theorem set_eq_ok_iff {row row' : Row} {index : Nat} {value : Value} :
    row.set index value = .ok row' ↔ row.schema.types[index]? = some value.type ∧
      row' = { row with cells := row.cells.set index (some value.truncated) } := by
  rw [← Schema.fieldType_eq_ok_iff]
  unfold set
  cases htype : row.schema.fieldType index with
  | error e => simp [bind, Except.bind]
  | ok expected =>
    by_cases hvalue : value.type = expected
    · simp [bind, Except.bind, pure, Except.pure, hvalue, eq_comm]
    · simp [bind, Except.bind, throw, throwThe, MonadExceptOf.throw, hvalue, Ne.symm hvalue]

/-- A row takes every schema that agrees with its own, and keeps its cells. -/
theorem rebind_eq_ok_iff {row row' : Row} {schema : Schema} :
    row.rebind schema = .ok row' ↔ schema.Agrees row.schema ∧ row' = { row with schema } := by
  unfold rebind
  by_cases hagrees : schema.Agrees row.schema
  · rw [if_pos hagrees, Except.ok.injEq]
    exact ⟨fun h => ⟨hagrees, h.symm⟩, fun h => h.2.symm⟩
  · rw [if_neg hagrees]
    exact ⟨nofun, fun h => absurd h.1 hagrees⟩

/-- Values are put into cells one after the other. -/
theorem setFrom_some_eq_ok_iff {row row' : Row} {index : Nat} {value : Value}
    {values : List (Option Value)} : row.setFrom index (some value :: values) = .ok row' ↔
      ∃ first, row.set index value = .ok first ∧ first.setFrom (index + 1) values = .ok row' := by
  rw [setFrom]
  cases hfirst : row.set index value with
  | error e => simp [bind, Except.bind]
  | ok first => simp [bind, Except.bind]

/-- Values that are taken have the types of their columns. -/
theorem types_of_setFrom {row row' : Row} {index : Nat} {values : List (Option Value)}
    (h : row.setFrom index values = .ok row') {i : Nat} {v : Value}
    (hv : values[i]? = some (some v)) : row.schema.types[index + i]? = some v.type := by
  induction values generalizing row index i with
  | nil => simp at hv
  | cons value values ih =>
    cases value with
    | none =>
      cases i with
      | zero => simp at hv
      | succ i =>
        rw [← Nat.succ_add_eq_add_succ]
        exact ih h hv
    | some w =>
      obtain ⟨first, hfirst, hrest⟩ := setFrom_some_eq_ok_iff.1 h
      obtain ⟨htype, rfl⟩ := set_eq_ok_iff.1 hfirst
      cases i with
      | zero =>
        obtain rfl : w = v := by simpa using hv
        exact htype
      | succ i =>
        rw [← Nat.succ_add_eq_add_succ]
        exact ih hrest hv

/-! ## Rows that fit -/

/-- A row has a cell for each column, and each cell is absent or has the type of its column. -/
structure Conforms (row : Row) (schema : Schema) : Prop where
  /-- There is a cell for each column. -/
  length_eq : row.length = schema.width
  /-- Each value has the type of its column. -/
  type_eq : ∀ {index v}, row.get? index = some v → schema.types[index]? = some v.type

/-- Whether a row conforms is a matter of its cells and of the types of the columns. -/
theorem Conforms.of_cells {row row' : Row} {schema schema' : Schema} (h : row.Conforms schema)
    (hcells : row'.cells = row.cells) (hagrees : schema.Agrees schema') : row'.Conforms schema' := by
  have htypes : schema.types = schema'.types := hagrees
  refine ⟨?_, fun {index v} hv => ?_⟩
  · rw [← Schema.length_types, ← htypes, Schema.length_types, ← h.length_eq]
    exact congrArg List.length hcells
  · rw [← htypes]
    refine h.type_eq ?_
    unfold get? at hv ⊢
    rw [← hcells]
    exact hv

/-- Rows that conform to the columns of both sides are concatenated to one that conforms to all. -/
theorem Conforms.append {l r : Row} {ls rs : Schema} (hl : l.Conforms ls) (hr : r.Conforms rs)
    (schema : Schema) : (l.append r schema).Conforms (ls.append rs) := by
  have hlength : l.cells.length = ls.types.length := hl.length_eq.trans ls.length_types.symm
  refine ⟨?_, fun {index v} hv => ?_⟩
  · show (l.cells ++ r.cells).length = _
    rw [List.length_append, hlength, ← Schema.length_types, Schema.types_append, List.length_append,
      Schema.length_types rs]
    exact congrArg (ls.types.length + ·) hr.length_eq
  · rw [Schema.types_append]
    have hcell : (l.cells ++ r.cells)[index]?.join = some v := hv
    -- the cells on the left are those of the left row
    by_cases hindex : index < l.cells.length
    · rw [List.getElem?_append_left hindex] at hcell
      rw [List.getElem?_append_left (hlength ▸ hindex)]
      exact hl.type_eq hcell
    · rw [List.getElem?_append_right (Nat.not_lt.1 hindex)] at hcell
      rw [List.getElem?_append_right (hlength ▸ Nat.not_lt.1 hindex), ← hlength]
      exact hr.type_eq hcell

/-! ## Rows without names -/

/-- The cells of a row, without the names of their columns and without their place. -/
def bare (row : Row) : Row := { schema := ⟨[]⟩, cells := row.cells }

/-- Rows with the same cells, in any order, are the same without names, in any order. -/
theorem bare_perm_iff {rows rows' : List Row} :
    (rows.map bare).Perm (rows'.map bare) ↔ (rows.map cells).Perm (rows'.map cells) := by
  constructor
  · intro h
    have hcells := h.map cells
    rwa [List.map_map, List.map_map] at hcells
  · intro h
    have hbare := h.map fun cells => ({ schema := ⟨[]⟩, cells } : Row)
    rwa [List.map_map, List.map_map] at hbare

/-! ## Rows that are made -/

/-- Values that fit their columns are put into the cells between those that are there. -/
theorem setFrom_eq (schema : Schema) (recordId : Option RecordId) (behind : List (Option Value))
    (values : List (Option Value)) :
    ∀ before : List (Option Value),
      (∀ {i : Nat} {v : Value}, values[i]? = some (some v) →
        schema.types[before.length + i]? = some v.type) →
      setFrom ⟨schema, before ++ (List.replicate values.length none ++ behind), recordId⟩
          before.length values =
        .ok ⟨schema, before ++ (values.map (Option.map Value.truncated) ++ behind), recordId⟩ := by
  induction values with
  | nil =>
    intro before _
    rw [setFrom]
    simp [pure, Except.pure]
  | cons value values ih =>
    intro before htypes
    -- the cells behind the first one fit the columns behind its column
    have hrest : ∀ {i : Nat} {v : Value}, values[i]? = some (some v) →
        schema.types[(before ++ [value.map Value.truncated]).length + i]? = some v.type := by
      intro i v hv
      have htype := htypes (i := i + 1) hv
      rw [List.length_append, List.length_singleton, Nat.add_right_comm]
      exact htype
    have hnext := ih (before ++ [value.map Value.truncated]) hrest
    rw [List.length_append, List.length_singleton, List.append_assoc, List.append_assoc] at hnext
    cases value with
    | none =>
      rw [setFrom]
      exact hnext
    | some v =>
      have hset : set ⟨schema, before ++ (List.replicate (values.length + 1) none ++ behind), recordId⟩
          before.length v = .ok ⟨schema,
            before ++ some v.truncated :: (List.replicate values.length none ++ behind), recordId⟩ := by
        refine set_eq_ok_iff.2 ⟨htypes (i := 0) rfl, ?_⟩
        simp [List.replicate_succ]
      rw [setFrom, List.length_cons, hset]
      exact hnext

/-- Cells that fit their columns make a row, with strings cut to size; the columns behind them stay
without a value. -/
theorem ofCells_eq_of_le {schema : Schema} {values : List (Option Value)}
    (hlength : values.length ≤ schema.width)
    (htypes : ∀ {i : Nat} {v : Value}, values[i]? = some (some v) →
      schema.types[i]? = some v.type) :
    ofCells schema values = .ok {
      schema
      cells := values.map (Option.map Value.truncated) ++
        List.replicate (schema.width - values.length) none } := by
  have h := setFrom_eq schema none (List.replicate (schema.width - values.length) none) values []
    (fun {i v} hv => by simpa using htypes hv)
  rw [List.replicate_append_replicate, Nat.add_sub_cancel' hlength] at h
  exact h

/-- Where there is a cell for each column, nothing lies behind. -/
theorem ofCells_eq {schema : Schema} {values : List (Option Value)}
    (hlength : values.length = schema.width)
    (htypes : ∀ {i : Nat} {v : Value}, values[i]? = some (some v) →
      schema.types[i]? = some v.type) :
    ofCells schema values = .ok { schema, cells := values.map (Option.map Value.truncated) } := by
  rw [ofCells_eq_of_le (Nat.le_of_eq hlength) htypes, hlength, Nat.sub_self, List.replicate_zero,
    List.append_nil]

/-- What a cell of such a row has is a value that it was given, cut to size. -/
theorem cell_map_truncated {values : List (Option Value)} {index : Nat} {v : Value} :
    (values.map (Option.map Value.truncated))[index]?.join = some v ↔
      ∃ w, values[index]? = some (some w) ∧ w.truncated = v := by
  rw [List.getElem?_map]
  cases values[index]? with
  | none => simp
  | some value => cases value <;> simp

/-- A row that is made so conforms to its columns. -/
theorem conforms_of_values {schema : Schema} {values : List (Option Value)}
    (hlength : values.length = schema.width)
    (htypes : ∀ {i : Nat} {v : Value}, values[i]? = some (some v) →
      schema.types[i]? = some v.type) :
    Conforms { schema, cells := values.map (Option.map Value.truncated) } schema := by
  refine ⟨(List.length_map _).trans hlength, fun {index v} hv => ?_⟩
  obtain ⟨w, hw, rfl⟩ := cell_map_truncated.1 hv
  rw [Value.type_truncated]
  exact htypes hw

/-- Values of the types of the columns, one for each, make a row. -/
theorem ofValues_of_types {schema : Schema} {values : List Value}
    (h : values.map Value.type = schema.types) : ofValues schema values =
      .ok { schema, cells := (values.map some).map (Option.map Value.truncated) } := by
  have hlength : values.length = schema.width := by
    rw [← Schema.length_types, ← h, List.length_map]
  unfold ofValues
  rw [if_pos hlength]
  apply ofCells_eq
  · rw [List.length_map, hlength]
  · intro i v hv
    rw [List.getElem?_map, Option.map_eq_some_iff] at hv
    obtain ⟨w, hw, hwv⟩ := hv
    cases hwv
    rw [← h, List.getElem?_map, hw, Option.map_some]

/-- No other values make one. -/
theorem types_of_ofValues {row : Row} {schema : Schema} {values : List Value}
    (h : ofValues schema values = .ok row) : values.map Value.type = schema.types := by
  unfold ofValues at h
  by_cases hlength : values.length = schema.width
  · rw [if_pos hlength] at h
    apply List.ext_getElem
    · rw [List.length_map, hlength, Schema.length_types]
    · intro i hi hi'
      rw [List.length_map] at hi
      have hcell : (values.map some)[i]? = some (some values[i]) := by
        rw [List.getElem?_map, List.getElem?_eq_getElem hi, Option.map_some]
      have htype : schema.types[0 + i]? = some values[i].type := types_of_setFrom h hcell
      rw [Nat.zero_add, List.getElem?_eq_getElem hi', Option.some.injEq] at htype
      rw [List.getElem_map, htype]
  · rw [if_neg hlength] at h
    cases h

/-- A row is made of values exactly if they have the types of the columns, one for each. -/
theorem ofValues_eq_ok_iff {row : Row} {schema : Schema} {values : List Value} :
    ofValues schema values = .ok row ↔ values.map Value.type = schema.types ∧
      row = { schema, cells := (values.map some).map (Option.map Value.truncated) } := by
  constructor
  · intro h
    have htypes := types_of_ofValues h
    rw [ofValues_of_types htypes, Except.ok.injEq] at h
    exact ⟨htypes, h.symm⟩
  · rintro ⟨htypes, rfl⟩
    exact ofValues_of_types htypes

end RowStream.Row
