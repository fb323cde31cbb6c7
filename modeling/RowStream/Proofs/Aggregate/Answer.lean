import RowStream.Proofs.Aggregate.Groups
import RowStream.Proofs.Aggregate.Profile

/-!
# `RowStream.Proofs.Aggregate.Answer` — the rows of an aggregate

Over a child whose rows conform to its columns, an aggregate either answers with a row for each group
or has a sum that leaves its range. Which rows it answers with does not depend on the order in which
those of the child come.

## Contents
- `planned_of_wellSet`, `wellSet_agrees` — what the settings of an aggregate are made for.
- `answer_cases` — the rows of the groups, or an overflow.
- `answer_perm` — the rows for the same rows of the child in another order.
-/

namespace RowStream.Aggregate

variable {b b' : Aggregate Unit} {child child' : Schema} {rows rows' : List Row}

/-- A column that is found is there. -/
theorem fields_of_column {index : Nat} {f : Field} (h : column child index = .ok f) :
    child.fields[index]? = some f := by
  unfold column at h
  cases hf : child.fields[index]? with
  | none => simp [hf] at h
  | some found =>
    simp only [hf, Except.ok.injEq] at h
    rw [h]

/-- A column that is found has the type that is listed. -/
theorem types_of_column {index : Nat} {f : Field} (h : column child index = .ok f) :
    child.types[index]? = some f.type := by
  simp [Schema.types, fields_of_column h]

/-- A group column that is found, if one is asked for, has the type that is listed. -/
theorem types_of_group {groupField : Option Nat} {group : Option Field}
    (h : groupField.mapM (column child) = .ok group) :
    group.map (·.type) = groupField.bind fun index => child.types[index]? := by
  cases groupField with
  | none =>
    cases h
    rfl
  | some index =>
    cases hcolumn : column child index with
    | error e => simp [hcolumn] at h
    | ok f =>
      simp only [Option.mapM_some, hcolumn] at h
      cases h
      exact (types_of_column hcolumn).symm

/-- What a grouping is made of. -/
theorem of_make_grouping {inputType : DataType} {groupField : Option Nat}
    {groupType : Option DataType} {field : Nat} {fn : AggregateFn} {g : Grouping}
    (h : Grouping.make inputType groupField groupType field fn = .ok g) :
    fn.supports inputType = true ∧ ∃ group, g = { inputType, group, field, fn } ∧
      groupField = group.map Prod.fst ∧ groupType = group.map Prod.snd := by
  unfold Grouping.make at h
  by_cases hsupports : fn.supports inputType = true
  · rw [if_pos hsupports] at h
    refine ⟨hsupports, ?_⟩
    match groupField, groupType, h with
    | some index, some type, h => exact ⟨some (index, type), (Except.ok.inj h).symm, rfl, rfl⟩
    | none, none, h => exact ⟨none, (Except.ok.inj h).symm, rfl, rfl⟩
  · rw [if_neg hsupports] at h
    cases h

/-- What the settings of an aggregate are made of. -/
theorem of_wellSet (h : b.WellSet child) : ∃ input group,
    column child b.field = .ok input ∧ b.groupField.mapM (column child) = .ok group ∧
      Grouping.make input.type b.groupField (group.map (·.type)) b.field b.fn = .ok b.blank ∧
      b.schema = ⟨group.toList ++ [{ input with type := .int }]⟩ := by
  unfold WellSet plan at h
  cases hinput : column child b.field with
  | error e => simp [hinput, bind, Except.bind] at h
  | ok input =>
    cases hgroup : b.groupField.mapM (column child) with
    | error e => simp [hinput, hgroup, bind, Except.bind] at h
    | ok group =>
      cases hblank : Grouping.make input.type b.groupField (group.map (·.type)) b.field b.fn with
      | error e => simp [hinput, hgroup, hblank, bind, Except.bind] at h
      | ok blank =>
        simp only [hinput, hgroup, hblank, bind, Except.bind, pure, Except.pure, Except.ok.injEq,
          Prod.mk.injEq] at h
        exact ⟨input, group, rfl, rfl, h.1 ▸ hblank, h.2.symm⟩

/-- The settings of an aggregate are made for the columns of its child. -/
theorem planned_of_wellSet (h : b.WellSet child) :
    b.blank.Planned child ∧ b.blank.groups = [] ∧ b.blank.schema.Agrees b.schema := by
  obtain ⟨input, found, hinput, hfound, hblank, hschema⟩ := of_wellSet h
  obtain ⟨hsupports, group, hmade, hfield, htype⟩ := of_make_grouping hblank
  have hagrees : b.blank.schema.types = b.schema.types := by
    rw [Grouping.types_schema, hmade, hschema, ← htype]
    cases found <;> rfl
  rw [hmade] at hagrees ⊢
  refine ⟨⟨types_of_column hinput, hsupports, ?_⟩, rfl, hagrees⟩
  rintro index type rfl
  have htypes := types_of_group hfound
  rw [htype, hfield] at htypes
  exact htypes.symm

/-- Over columns of the same types, the same aggregate has the same settings. -/
theorem wellSet_agrees (h : b.WellSet child) (h' : b'.WellSet child') (hagrees : child.Agrees child')
    (hfield : b.field = b'.field) (hgroup : b.groupField = b'.groupField) (hfn : b.fn = b'.fn) :
    b.blank = b'.blank ∧ b.schema.Agrees b'.schema := by
  have htypes : child.types = child'.types := hagrees
  obtain ⟨input, found, hinput, hfound, hblank, -⟩ := of_wellSet h
  obtain ⟨input', found', hinput', hfound', hblank', -⟩ := of_wellSet h'
  have hinputType : input.type = input'.type := by
    have hlisted := types_of_column hinput
    rw [htypes, hfield, types_of_column hinput'] at hlisted
    exact (Option.some.inj hlisted).symm
  have hgroupType : found.map (·.type) = found'.map (·.type) := by
    rw [types_of_group hfound, types_of_group hfound', htypes, hgroup]
  rw [hinputType, hgroupType, hgroup, hfield, hfn, hblank'] at hblank
  have heq : b.blank = b'.blank := (Except.ok.inj hblank).symm
  refine ⟨heq, ?_⟩
  have hschema := (planned_of_wellSet h).2.2
  rw [heq] at hschema
  exact hschema.symm.trans (planned_of_wellSet h').2.2

/-! ## The rows of an aggregate -/

variable [Grouping.Listing]

/-- Over rows that conform to the columns of the child, an aggregate answers with a row for each
group, unless a sum leaves its range. -/
theorem answer_cases (h : b.WellSet child) (hrows : ∀ row ∈ rows, row.Conforms child) :
    (∃ g, b.answer ⟨rows, none⟩ =
          .ok (g, g.listed.map fun (key, acc) => Grouping.answerRow b.schema key acc) ∧
        Grouping.Summary b.blank rows g) ∨
      ∃ e, b.blank.Overflows rows e ∧ b.answer ⟨rows, none⟩ = .error e := by
  obtain ⟨hplan, hblank, hschema⟩ := planned_of_wellSet h
  unfold answer
  rw [Script.foldM_of_ends rfl]
  rcases Grouping.fold_cases hplan hblank hrows with ⟨g, hfold, hsummary⟩ | ⟨e, hoverflow, hfold⟩
  · refine .inl ⟨g, ?_, hsummary⟩
    rw [hfold]
    simp only [bind, Except.bind, Grouping.rows_eq hsummary hplan hrows hschema]
    rfl
  · refine .inr ⟨e, hoverflow, ?_⟩
    rw [hfold]
    rfl

/-- The rows of an aggregate conform to its columns. -/
theorem conforms_of_answer (h : b.WellSet child) (hrows : ∀ row ∈ rows, row.Conforms child)
    {g : Grouping} (hsummary : Grouping.Summary b.blank rows g) :
    ∀ row ∈ g.listed.map fun (key, acc) => Grouping.answerRow b.schema key acc,
      row.Conforms b.schema := by
  obtain ⟨hplan, -, hschema⟩ := planned_of_wellSet h
  intro row hrow
  obtain ⟨⟨key, acc⟩, hmem, rfl⟩ := List.mem_map.1 hrow
  exact (Grouping.row_eq hschema (hsummary.expects hplan hrows (Grouping.mem_listed.1 hmem)) acc).2

/-- The cells of the rows of an aggregate are decided by those of the child, whatever their order. -/
theorem answer_perm {g g' : Grouping} (hsummary : Grouping.Summary b.blank rows g)
    (hsummary' : Grouping.Summary b'.blank rows' g') (hblank : b.blank = b'.blank)
    (hperm : (rows.map Row.bare).Perm (rows'.map Row.bare)) (schema schema' : Schema) :
    ((g.listed.map fun (key, acc) => Grouping.answerRow schema key acc).map Row.cells).Perm
      ((g'.listed.map fun (key, acc) => Grouping.answerRow schema' key acc).map Row.cells) := by
  rw [← hblank] at hsummary'
  have hgroups := Grouping.groups_perm hsummary hsummary' hperm
  rw [List.map_map, List.map_map]
  exact (g.listed_perm.trans (hgroups.trans g'.listed_perm.symm)).map _

end RowStream.Aggregate
