import RowStream.Proofs.Aggregate.Batch
import RowStream.Proofs.Tree.Joined

/-!
# `RowStream.Proofs.Tree.Grouped` — what is collected of the aggregate of a tree

An aggregate of a tree that can be collected opens unless a sum leaves its range on the way, and then
gives the rows of grouping and reducing the rows of the tree at once.

## Contents
- `Aggregate.opening_exact` — what the profile of an aggregate opens with.
- `Aggregate.collect_exact` — when the aggregate of any tree opens, and what is collected of it.
-/

namespace RowStream.Aggregate

open Call

variable {σ : Type} [Cursor σ] {store : PageStore}

variable {b : Aggregate Unit} {C : Profile σ} {rows : List Row}

omit [Cursor σ] in
/-- Over a child that opens with rows that conform to its columns, an aggregate opens with the rows of
the groups, unless a sum leaves its range on the way. -/
theorem opening_exact [Grouping.Listing] (hset : b.WellSet C.schema)
    (hopening : C.opening = .ok ⟨rows, none⟩) (hrows : ∀ row ∈ rows, row.Conforms C.schema)
    (hfew : rows.length < 2 ^ 63) :
    (∃ answer, (profile b C).opening = .ok ⟨answer, none⟩ ∧
        Reduced b.fn b.field b.groupField rows answer ∧
        ¬ (b.fn = .sum ∧ LeavesRange b.field b.groupField rows)) ∨
      ∃ total i, (profile b C).opening = .error (.sumOverflow total i) ∧ b.fn = .sum ∧
        LeavesRange b.field b.groupField rows := by
  have hprofile := opening_of_child (b := b) hopening
  rcases answer_exact hset hrows hfew with ⟨g, answer, hanswer, hreduced, hrange⟩ |
    ⟨total, i, hanswer, hsum, hleaves⟩
  · refine .inl ⟨answer, ?_, hreduced, hrange⟩
    rw [hprofile, hanswer]
    rfl
  · refine .inr ⟨total, i, ?_, hsum, hleaves⟩
    rw [hprofile, hanswer]
    rfl

/-- A tree that can be collected is aggregated. Its aggregate fails to open exactly if it is a sum and
adding up the numbers of some group in the order of the rows leaves the 64-bit integers on the way,
and says so; otherwise what is collected of it are the rows of the groups: one for each key that
occurs, with the number of rows, or with the sum, the mean, the least or the greatest of the numbers
that are present in the aggregated column. -/
theorem collect_exact [Join.Sorting] [Grouping.Listing] (hstore : store.Reached) {s : Stream}
    (hs : s.Built store) (hcollect : (Cursor.collect store s.node).result = .ok rows)
    (hrows : ∀ row ∈ rows, row.Conforms s.schema) (hfew : rows.length < 2 ^ 63) {field : Nat}
    {groupField : Option Nat} {fn : AggregateFn} {a : Aggregate (Node s.shape)}
    (ha : Aggregate.make s.node field groupField fn = .ok a) :
    ((∃ e, (Cursor.start store a).result = .error e) ↔
        fn = .sum ∧ LeavesRange field groupField rows) ∧
      (∀ e, (Cursor.start store a).result = .error e → ∃ total i, e = .sumOverflow total i) ∧
      ((Cursor.start store a).result = .ok () →
        ∃ answer, (Cursor.collect store a).result = .ok answer ∧
          Reduced fn field groupField rows answer) := by
  have hsound := PageStore.sound_of_reached hstore
  have hC := Node.profile_holds hsound (Stream.wellFormed_of_built hs)
  obtain ⟨hchild, hopening⟩ := hC.closed_of_collect (Node.own_self store _) hcollect
  have hschema : (s.node.profile store).schema = s.schema := Node.schema_profile _
  rw [← hschema] at hrows
  obtain ⟨blank, columns, hplan, hmade⟩ := of_make ha
  have hset : a.bare.WellSet (s.node.profile store).schema := by
    rw [hschema, hmade]
    exact hplan
  -- the new aggregate is closed, and its profile is that of its settings over that of the tree
  have hA := profile_holds (b := a.bare) hC
  have hclosed : (profile a.bare (s.node.profile store)).closed a := by
    rw [hmade]
    exact ⟨rfl, rfl, hchild⟩
  obtain ⟨rfl, rfl, rfl⟩ : a.field = field ∧ a.groupField = groupField ∧ a.fn = fn := by
    rw [hmade]
    exact ⟨rfl, rfl, rfl⟩
  rcases opening_exact hset hopening hrows hfew with ⟨answer, hanswer, hreduced, hrange⟩ |
    ⟨total, i, hoverflow, hsum, hleaves⟩
  · have hstart := hA.start_of_opening hclosed hanswer
    refine ⟨⟨?_, fun hout => absurd hout hrange⟩, ?_, fun _ => ?_⟩
    · rintro ⟨e, he⟩
      cases hstart.symm.trans he
    · intro e he
      cases hstart.symm.trans he
    · exact ⟨answer, hA.collect_of_opening hclosed hanswer, hreduced⟩
  · have hstart : (Cursor.start store a).result = .error (.sumOverflow total i) := by
      rw [hA.start_result hclosed, hoverflow]
      rfl
    refine ⟨⟨fun _ => ⟨hsum, hleaves⟩, fun _ => ⟨_, hstart⟩⟩, ?_, ?_⟩
    · intro e he
      cases hstart.symm.trans he
      exact ⟨total, i, rfl⟩
    · intro hok
      cases hstart.symm.trans hok

/-- The means of a column with an absent cell, grouped by itself. -/
theorem collect_exact_of_column :
    ∃ a answer, Aggregate.make (Stream.column [some 4, none, some 4]).node 0 (some 0) .avg = .ok a ∧
      (Cursor.collect (PageStore.empty 64) a).result = .ok answer ∧
      Reduced .avg 0 (some 0) (Stream.columnRows [some 4, none, some 4]) answer := by
  have hmake : Aggregate.make (Stream.column [some 4, none, some 4]).node 0 (some 0) .avg = .ok _ := rfl
  obtain ⟨hfails, -, hanswer⟩ := collect_exact (PageStore.Reached.empty 64)
    (Stream.built_column _ _) (Materialized.collect_eq _ _ _) (Stream.conforms_column _) (by decide)
    hmake
  -- only a sum can fail
  have hstart := match hres : (Cursor.start (PageStore.empty 64) _).result with
    | .ok () => hres
    | .error e => absurd (hfails.1 ⟨e, hres⟩).1 (by decide)
  obtain ⟨answer, hcollect, hreduced⟩ := hanswer hstart
  exact ⟨_, answer, hmake, hcollect, hreduced⟩

end RowStream.Aggregate
