import RowStream.Proofs.Row.Conforms
import RowStream.Proofs.Text.Truncate

/-!
# `RowStream.Proofs.Row.Typed` — rows that are what their columns say

The one place where a value is checked is where it is put into a cell. Whoever puts cells together,
gives a row other names or reads it back checks nothing, and need not: a row that was made cell by
cell stays what its columns say.

## Contents
- `Value.textBytes_truncated_le`, `truncated_eq_self` — what is cut to size fits, and what fits stays.
- `Row.Typed` — a row with the cells that the columns ask for.
- `Typed.of_cells`, `Typed.append`, `Typed.rebind` — other names, two rows in one, other columns of the
  same types.
- `typed_of_values` — values that fit their columns make such a row.
- `Row.Made`, `made_of_values`, `typed_of_made` — every row that can be made is one under its own columns.
-/

namespace RowStream

/-- A value that is cut to size fits a cell. -/
theorem Value.textBytes_truncated_le (v : Value) : v.truncated.textBytes ≤ maxStringBytes := by
  cases v with
  | int i => exact Nat.zero_le _
  | str s => exact (Text.longestFit_truncate maxStringBytes s).fits

/-- A value that fits a cell is not cut. -/
theorem Value.truncated_eq_self {v : Value} (h : v.textBytes ≤ maxStringBytes) : v.truncated = v := by
  cases v with
  | int i => rfl
  | str s => exact congrArg Value.str (Text.truncate_eq_self h)

namespace Row

/-- A row has a cell for each column, of which each is absent or has a value of the type of its column
that is not too long for a cell; and its own columns have the same types. -/
structure Typed (row : Row) (schema : Schema) : Prop where
  /-- The cells have the types of the columns. -/
  conforms : row.Conforms schema
  /-- So have the columns of the row. -/
  agrees : row.schema.Agrees schema
  /-- No string is too long. -/
  sized : ∀ {index v}, row.get? index = some v → v.textBytes ≤ maxStringBytes

variable {row row' : Row} {schema schema' : Schema}

/-- A row with the same cells under columns of the same types. -/
theorem Typed.of_cells (h : row.Typed schema) (hcells : row'.cells = row.cells)
    (hrow : row'.schema.Agrees schema') (hagrees : schema.Agrees schema') : row'.Typed schema' where
  conforms := h.conforms.of_cells hcells hagrees
  agrees := hrow
  sized := by
    intro index v hv
    have hcell : row.get? index = some v := by
      unfold get? at hv ⊢
      rw [← hcells]
      exact hv
    exact h.sized hcell

/-- The cells of two rows under the columns of both. -/
theorem Typed.append {l r : Row} {ls rs : Schema} (hl : l.Typed ls) (hr : r.Typed rs) :
    (l.append r (ls.append rs)).Typed (ls.append rs) where
  conforms := hl.conforms.append hr.conforms _
  agrees := .refl _
  sized := by
    intro index v hv
    have hcell : (l.cells ++ r.cells)[index]?.join = some v := hv
    by_cases hindex : index < l.cells.length
    · rw [List.getElem?_append_left hindex] at hcell
      exact hl.sized hcell
    · rw [List.getElem?_append_right (Nat.not_lt.1 hindex)] at hcell
      exact hr.sized hcell

/-- A row takes every schema of the same types, and keeps its cells. -/
theorem Typed.rebind (h : row.Typed schema) (hagrees : schema'.Agrees schema) :
    ∃ row', row.rebind schema' = .ok row' ∧ row'.Typed schema' := by
  refine ⟨{ row with schema := schema' }, ?_, h.of_cells rfl (.refl _) hagrees.symm⟩
  exact rebind_eq_ok_iff.2 ⟨hagrees.trans h.agrees.symm, rfl⟩

/-- Values that fit their columns make a row that is what the columns say. -/
theorem typed_of_values {values : List (Option Value)} (hlength : values.length = schema.width)
    (htypes : ∀ {i : Nat} {v : Value}, values[i]? = some (some v) →
      schema.types[i]? = some v.type) :
    Typed { schema, cells := values.map (Option.map Value.truncated) } schema where
  conforms := conforms_of_values hlength htypes
  agrees := .refl _
  sized := by
    intro index v hv
    obtain ⟨w, -, rfl⟩ := cell_map_truncated.1 hv
    exact w.textBytes_truncated_le

/-! ## Rows that can be made -/

/-- The rows that can be made. -/
inductive Made : Row → Prop where
  /-- A row without values. -/
  | empty (schema : Schema) : Made (empty schema)
  /-- A value that is put into a cell. -/
  | set {row row' : Row} {index : Nat} {value : Value} :
    Made row → row.set index value = .ok row' → Made row'
  /-- A row under another schema. -/
  | rebind {row row' : Row} {schema : Schema} : Made row → row.rebind schema = .ok row' → Made row'
  /-- A row that is stored somewhere. -/
  | place {row : Row} (recordId : Option RecordId) : Made row → Made { row with recordId }
  /-- Two rows in one. -/
  | append {l r : Row} : Made l → Made r → Made (l.append r (l.schema.append r.schema))

/-- Values that are put into cells one after the other. -/
theorem Made.setFrom {values : List (Option Value)} {index : Nat} (h : row.Made)
    (hset : row.setFrom index values = .ok row') : row'.Made := by
  induction values generalizing row index with
  | nil =>
    cases hset
    exact h
  | cons value values ih =>
    cases value with
    | none => exact ih h hset
    | some v =>
      obtain ⟨first, hfirst, hrest⟩ := setFrom_some_eq_ok_iff.1 hset
      exact ih (.set h hfirst) hrest

/-- A row that is made of values for its columns. -/
theorem made_of_values {values : List Value} (h : ofValues schema values = .ok row) : row.Made := by
  unfold ofValues at h
  by_cases hlength : values.length = schema.width
  · rw [if_pos hlength] at h
    exact (Made.empty schema).setFrom h
  · rw [if_neg hlength] at h
    cases h

theorem typed_empty (schema : Schema) : (empty schema).Typed schema := by
  have habsent : ∀ index v, (empty schema).get? index ≠ some v := by
    intro index v hv
    unfold get? empty at hv
    rw [List.getElem?_replicate] at hv
    by_cases hindex : index < schema.width <;> simp [hindex] at hv
  exact {
    conforms := ⟨List.length_replicate, fun {index v} hv => absurd hv (habsent index v)⟩
    agrees := .refl _
    sized := fun {index v} hv => absurd hv (habsent index v) }

/-- What is put into a cell was checked and cut to size. -/
theorem typed_set (h : row.Typed row.schema) {index : Nat} {value : Value}
    (hset : row.set index value = .ok row') : row'.Typed row'.schema := by
  obtain ⟨htype, rfl⟩ := set_eq_ok_iff.1 hset
  -- a cell is the new one, or one that was there
  have hcell : ∀ {i v}, (row.cells.set index (some value.truncated))[i]?.join = some v →
      i = index ∧ v = value.truncated ∨ row.get? i = some v := by
    intro i v hv
    rw [List.getElem?_set] at hv
    by_cases hi : index = i
    · by_cases hlength : index < row.cells.length
      · simp only [hi, hi ▸ hlength, if_true, Option.join_some, Option.some.injEq] at hv
        exact .inl ⟨hi.symm, hv.symm⟩
      · simp [hi, hi ▸ hlength] at hv
    · rw [if_neg hi] at hv
      exact .inr hv
  refine ⟨⟨?_, ?_⟩, .refl _, ?_⟩
  · exact (List.length_set).trans h.conforms.length_eq
  · intro i v hv
    rcases hcell hv with ⟨rfl, rfl⟩ | hv
    · rw [Value.type_truncated]
      exact htype
    · exact h.conforms.type_eq hv
  · intro i v hv
    rcases hcell hv with ⟨-, rfl⟩ | hv
    · exact value.textBytes_truncated_le
    · exact h.sized hv

/-- Every row that can be made is what its columns say. -/
theorem typed_of_made (h : row.Made) : row.Typed row.schema := by
  induction h with
  | empty schema => exact typed_empty schema
  | set _ hset ih => exact typed_set ih hset
  | @rebind row row' schema _ hrebind ih =>
    obtain ⟨hagrees, rfl⟩ := rebind_eq_ok_iff.1 hrebind
    exact ih.of_cells rfl (.refl _) hagrees.symm
  | place recordId _ ih => exact ih.of_cells rfl (.refl _) (.refl _)
  | append _ _ ihl ihr => exact ihl.append ihr

end Row

end RowStream
