import RowStream.Proofs.Tree.Built

/-!
# `RowStream.Proofs.Tree.Refuses` — why children are refused

A join or an aggregate that gets other children first looks whether it can be an operator over them. What
it looks at comes in a fixed order, and the first thing that is wrong is told.

## Contents
- `Join.Unfit`, `Join.setChildren_eq_error_iff` — a condition that does not fit two sides.
- `Aggregate.Unplanned`, `Aggregate.setChild_eq_error_iff` — columns and a function that do not fit a
  child.
- `Stream.Refuses`, `Stream.setChildren_eq_error_iff` — why a stream refuses to get children, and that it
  does so for no other reason.
-/

namespace RowStream

/-! ## Two sides of a join -/

namespace Join

variable {σ τ σ' τ' : Type}

/-- Why a condition does not fit two sides. -/
inductive Unfit (p : Predicate) (left right : Schema) : StreamError → Prop where
  /-- Its left column is not there. -/
  | left : left.width ≤ p.leftField → Unfit p left right (.predicateField p p.leftField)
  /-- Its right column is not there. -/
  | right : p.leftField < left.width → right.width ≤ p.rightField →
    Unfit p left right (.predicateField p p.rightField)

/-- The left column is looked at first. -/
theorem checkFields_eq_error_iff {p : Predicate} {left right : Schema} {e : StreamError} :
    checkFields p left right = .error e ↔ Unfit p left right e := by
  unfold checkFields
  constructor
  · intro h
    by_cases hl : left.width ≤ p.leftField
    · rw [if_pos hl] at h
      cases h
      exact .left hl
    · rw [if_neg hl] at h
      by_cases hr : right.width ≤ p.rightField
      · rw [if_pos hr] at h
        cases h
        exact .right (Nat.not_le.1 hl) hr
      · rw [if_neg hr] at h
        cases h
  · rintro (⟨hl⟩ | ⟨hl, hr⟩)
    · rw [if_pos hl]
    · rw [if_neg (Nat.not_le.2 hl), if_pos hr]

theorem checkClosed_of_closed {j : Join σ τ} (h : j.pending = none) : j.checkClosed = .ok () := by
  unfold checkClosed
  rw [h]
  rfl

theorem checkClosed_of_open {j : Join σ τ} (h : j.pending ≠ none) :
    j.checkClosed = .error (.usage .rebindOpenJoin) := by
  unfold checkClosed
  rw [if_pos (Option.isSome_iff_ne_none.2 h)]

/-- A closed join is given children that its condition fits. -/
theorem setChildren_eq_error_iff [Cursor σ'] [Cursor τ'] {j : Join σ τ} {left : σ'} {right : τ'}
    {e : StreamError} (hclosed : j.pending = none) :
    j.setChildren left right = .error e ↔
      Unfit j.predicate (Cursor.schema left) (Cursor.schema right) e := by
  rw [← checkFields_eq_error_iff]
  unfold setChildren
  rw [checkClosed_of_closed hclosed]
  cases hfields : checkFields j.predicate (Cursor.schema left) (Cursor.schema right) <;>
    simp [bind, Except.bind, pure, Except.pure]

end Join

/-! ## The child of an aggregate -/

namespace Aggregate

/-- A column that is there, and one that is not. -/
theorem column_cases (child : Schema) (index : Nat) :
    (∃ field, child.fields[index]? = some field ∧ column child index = .ok field) ∨
      (child.width ≤ index ∧ column child index = .error (.data (.schema (.noFieldAt index)))) := by
  unfold column
  cases hfield : child.fields[index]? with
  | some field => exact .inl ⟨field, rfl, rfl⟩
  | none => exact .inr ⟨List.getElem?_eq_none_iff.1 hfield, rfl⟩

/-- A group column that is there, if one is asked for, and one that is not. -/
theorem group_cases (child : Schema) (groupField : Option Nat) :
    (∃ group, groupField.mapM (column child) = .ok group ∧ (∀ index ∈ groupField, index < child.width) ∧
      group.isSome = groupField.isSome) ∨
      ∃ index, groupField = some index ∧ child.width ≤ index ∧
        groupField.mapM (column child) = .error (.data (.schema (.noFieldAt index))) := by
  cases groupField with
  | none =>
    left
    exact ⟨none, rfl, nofun, rfl⟩
  | some index =>
    obtain ⟨group, hfield, hgroup⟩ | ⟨hle, hgroup⟩ := column_cases child index
    · left
      have hlt : index < child.width := (List.getElem?_eq_some_iff.1 hfield).1
      refine ⟨some group, ?_, fun i hi => Option.some.inj hi ▸ hlt, rfl⟩
      rw [Option.mapM_some, hgroup]
      rfl
    · right
      refine ⟨index, rfl, hle, ?_⟩
      rw [Option.mapM_some, hgroup]
      rfl

/-- With an index and a type of the group column, or with neither, only the function can be refused. -/
theorem make_grouping_cases (inputType : DataType) (field : Nat) (fn : AggregateFn)
    {groupField : Option Nat} {groupType : Option DataType}
    (hgroup : groupType.isSome = groupField.isSome) :
    (fn.supports inputType = true ∧
        ∃ blank, Grouping.make inputType groupField groupType field fn = .ok blank) ∨
      (fn.supports inputType = false ∧ Grouping.make inputType groupField groupType field fn =
        .error (.setting (.unsupported fn inputType))) := by
  unfold Grouping.make
  cases hsupports : fn.supports inputType with
  | false => exact .inr ⟨rfl, rfl⟩
  | true =>
    left
    refine ⟨rfl, ?_⟩
    match groupField, groupType, hgroup with
    | none, none, _ => exact ⟨_, rfl⟩
    | some index, some type, _ => exact ⟨_, rfl⟩

/-- Why an aggregate over these columns is refused. -/
inductive Unplanned (child : Schema) (field : Nat) (groupField : Option Nat) (fn : AggregateFn) :
    StreamError → Prop where
  /-- The aggregated column is not there. -/
  | field : child.width ≤ field →
    Unplanned child field groupField fn (.data (.schema (.noFieldAt field)))
  /-- The group column is not there. -/
  | group {index : Nat} : field < child.width → groupField = some index → child.width ≤ index →
    Unplanned child field groupField fn (.data (.schema (.noFieldAt index)))
  /-- The function does not take the type of its column. -/
  | unsupported {input : Field} : child.fields[field]? = some input →
    (∀ index ∈ groupField, index < child.width) → fn.supports input.type = false →
      Unplanned child field groupField fn (.setting (.unsupported fn input.type))

variable {child : Schema} {field : Nat} {groupField : Option Nat} {fn : AggregateFn} {e : StreamError}

/-- An aggregate that is refused is refused for one of these reasons. -/
theorem unplanned_of_plan (h : plan child field groupField fn = .error e) :
    Unplanned child field groupField fn e := by
  unfold plan at h
  obtain ⟨input, hfield, hinput⟩ | ⟨hle, hinput⟩ := column_cases child field
  case inr =>
    rw [hinput] at h
    cases h
    exact .field hle
  have hlt : field < child.width := (List.getElem?_eq_some_iff.1 hfield).1
  obtain ⟨group, hgroup, hthere, hsome⟩ | ⟨index, rfl, hle, hgroup⟩ := group_cases child groupField
  case inr =>
    rw [hinput, hgroup] at h
    cases h
    exact .group hlt rfl hle
  have htype : (group.map (·.type)).isSome = groupField.isSome := by rw [Option.isSome_map, hsome]
  obtain ⟨-, blank, hblank⟩ | ⟨hunsupported, hblank⟩ :=
    make_grouping_cases input.type field fn htype
  · simp [hinput, hgroup, hblank, bind, Except.bind, pure, Except.pure] at h
  · simp only [hinput, hgroup, hblank, bind, Except.bind, Except.error.injEq] at h
    subst h
    exact .unsupported hfield hthere hunsupported

/-- Each of these reasons is enough. -/
theorem plan_of_unplanned (h : Unplanned child field groupField fn e) :
    plan child field groupField fn = .error e := by
  unfold plan
  obtain ⟨input, hfield, hinput⟩ | ⟨hmissing, hinput⟩ := column_cases child field
  case inr =>
    cases h with
    | field => rw [hinput]; rfl
    | group hlt => omega
    | unsupported hfield =>
      have hlt := (List.getElem?_eq_some_iff.1 hfield).1
      exact absurd hmissing (Nat.not_le.2 hlt)
  have hlt : field < child.width := (List.getElem?_eq_some_iff.1 hfield).1
  obtain ⟨group, hgroup, hthere, hsome⟩ | ⟨index, rfl, hle, hgroup⟩ := group_cases child groupField
  case inr =>
    rw [hinput, hgroup]
    cases h with
    | field hle' => omega
    | group _ hindex => rw [Option.some.inj hindex]; rfl
    | unsupported _ hthere => exact absurd (hthere index rfl) (Nat.not_lt.2 hle)
  cases h with
  | field hle => omega
  | group _ hindex hle => exact absurd (hthere _ hindex) (Nat.not_lt.2 hle)
  | unsupported hfound _ hunsupported =>
    rw [hfield] at hfound
    cases hfound
    simp only [hinput, hgroup, Grouping.make, hunsupported, bind, Except.bind]
    rfl

/-- An aggregate is refused for the first of these reasons that there is, and for no other. -/
theorem plan_eq_error_iff :
    plan child field groupField fn = .error e ↔ Unplanned child field groupField fn e :=
  ⟨unplanned_of_plan, plan_of_unplanned⟩

theorem checkClosed_of_closed {σ : Type} {a : Aggregate σ} (h : a.run = none) :
    a.checkClosed = .ok () := by
  unfold checkClosed
  rw [h]
  rfl

theorem checkClosed_of_open {σ : Type} {a : Aggregate σ} (h : a.run ≠ none) :
    a.checkClosed = .error (.usage .rebindOpenAggregate) := by
  unfold checkClosed
  rw [if_pos (Option.isSome_iff_ne_none.2 h)]

/-- A closed aggregate is given a child over which it can be planned. -/
theorem setChild_eq_error_iff {σ σ' : Type} [Cursor σ'] {a : Aggregate σ} {child : σ'}
    (hclosed : a.run = none) :
    a.setChild child = .error e ↔ Unplanned (Cursor.schema child) a.field a.groupField a.fn e := by
  rw [← plan_eq_error_iff]
  unfold setChild
  rw [checkClosed_of_closed hclosed]
  cases hplan : plan (Cursor.schema child) a.field a.groupField a.fn <;>
    simp [bind, Except.bind, pure, Except.pure]

end Aggregate

/-! ## The children of a stream -/

namespace Stream

variable [Join.Sorting] [Grouping.Listing]

/-- Why a stream refuses to get these children. -/
inductive Refuses : Stream → List Stream → StreamError → Prop where
  /-- A join is open. -/
  | openJoin {l r : Shape} {j : Join (Node l) (Node r)} {children : List Stream} :
    j.pending ≠ none → Refuses ⟨.join l r, j⟩ children (.usage .rebindOpenJoin)
  /-- A closed join is given more or fewer than two children. -/
  | joinCount {l r : Shape} {j : Join (Node l) (Node r)} {children : List Stream} :
    j.pending = none → children.length ≠ 2 →
      Refuses ⟨.join l r, j⟩ children (.usage (.joinChildren children.length))
  /-- The condition of a closed join does not fit the children. -/
  | unfit {l r : Shape} {j : Join (Node l) (Node r)} {left right : Stream} {e : StreamError} :
    j.pending = none → Join.Unfit j.predicate left.schema right.schema e →
      Refuses ⟨.join l r, j⟩ [left, right] e
  /-- An aggregate is open. -/
  | openAggregate {c : Shape} {a : Aggregate (Node c)} {children : List Stream} :
    a.run ≠ none → Refuses ⟨.aggregate c, a⟩ children (.usage .rebindOpenAggregate)
  /-- A closed aggregate is given more or fewer than one child. -/
  | aggregateCount {c : Shape} {a : Aggregate (Node c)} {children : List Stream} :
    a.run = none → children.length ≠ 1 →
      Refuses ⟨.aggregate c, a⟩ children (.usage (.aggregateChildren children.length))
  /-- A closed aggregate cannot be planned over the child. -/
  | unplanned {c : Shape} {a : Aggregate (Node c)} {child : Stream} {e : StreamError} :
    a.run = none → Aggregate.Unplanned child.schema a.field a.groupField a.fn e →
      Refuses ⟨.aggregate c, a⟩ [child] e

variable {s : Stream} {children : List Stream} {e : StreamError}

/-- Where a join refuses children, it is for one of these reasons. -/
theorem refuses_of_setChildren_join {l r : Shape} {j : Join (Node l) (Node r)}
    (h : setChildren ⟨.join l r, j⟩ children = .error e) : Refuses ⟨.join l r, j⟩ children e := by
  unfold setChildren at h
  by_cases hclosed : j.pending = none
  · match children with
    | [left, right] =>
      rw [replaceChildren_pair] at h
      cases hset : Join.setChildren j left.node right.node with
      | ok j' => simp [hset] at h
      | error e' =>
        simp only [hset, Except.error.injEq] at h
        exact .unfit hclosed ((Join.setChildren_eq_error_iff hclosed).1 (h ▸ hset))
    | [] | [_] | _ :: _ :: _ :: _ =>
      rw [replaceChildren_of_not_pair j (by simp), Join.checkClosed_of_closed hclosed] at h
      cases h
      exact .joinCount hclosed (by simp)
  · rw [replaceChildren_of_open_join (Join.checkClosed_of_open hclosed)] at h
    cases h
    exact .openJoin hclosed

/-- Where an aggregate refuses a child, it is for one of these reasons. -/
theorem refuses_of_setChildren_aggregate {c : Shape} {a : Aggregate (Node c)}
    (h : setChildren ⟨.aggregate c, a⟩ children = .error e) :
    Refuses ⟨.aggregate c, a⟩ children e := by
  unfold setChildren at h
  by_cases hclosed : a.run = none
  · match children with
    | [child] =>
      rw [replaceChildren_single] at h
      cases hset : Aggregate.setChild a child.node with
      | ok a' => simp [hset] at h
      | error e' =>
        simp only [hset, Except.error.injEq] at h
        exact .unplanned hclosed ((Aggregate.setChild_eq_error_iff hclosed).1 (h ▸ hset))
    | [] | _ :: _ :: _ =>
      rw [replaceChildren_of_not_single a (by simp), Aggregate.checkClosed_of_closed hclosed] at h
      cases h
      exact .aggregateCount hclosed (by simp)
  · rw [replaceChildren_of_open_aggregate (Aggregate.checkClosed_of_open hclosed)] at h
    cases h
    exact .openAggregate hclosed

/-- Where children are refused, it is for one of these reasons. -/
theorem refuses_of_setChildren (h : s.setChildren children = .error e) : s.Refuses children e := by
  obtain ⟨shape, t⟩ := s
  cases shape with
  | join l r => exact refuses_of_setChildren_join h
  | aggregate c => exact refuses_of_setChildren_aggregate h
  | materialized => cases h
  | scan => cases h
  | sealed inner => cases h

/-- Each of these reasons is enough. -/
theorem setChildren_of_refuses (h : s.Refuses children e) : s.setChildren children = .error e := by
  unfold setChildren
  cases h with
  | openJoin hopen => rw [replaceChildren_of_open_join (Join.checkClosed_of_open hopen)]
  | joinCount hclosed hcount =>
    rw [replaceChildren_of_not_pair _ hcount, Join.checkClosed_of_closed hclosed]
  | unfit hclosed hunfit =>
    have hset := (Join.setChildren_eq_error_iff hclosed).2 hunfit
    rw [replaceChildren_pair, hset]
  | openAggregate hopen =>
    rw [replaceChildren_of_open_aggregate (Aggregate.checkClosed_of_open hopen)]
  | aggregateCount hclosed hcount =>
    rw [replaceChildren_of_not_single _ hcount, Aggregate.checkClosed_of_closed hclosed]
  | unplanned hclosed hunplanned =>
    have hset := (Aggregate.setChild_eq_error_iff hclosed).2 hunplanned
    rw [replaceChildren_single, hset]

/-- Children are refused for the first of these reasons that there is, and for no other. -/
theorem setChildren_eq_error_iff : s.setChildren children = .error e ↔ s.Refuses children e :=
  ⟨refuses_of_setChildren, setChildren_of_refuses⟩

end Stream

end RowStream
