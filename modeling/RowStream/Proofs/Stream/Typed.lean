import RowStream.Proofs.Aggregate.Answer
import RowStream.Proofs.Join.Profile
import RowStream.Proofs.Join.Strategies
import RowStream.Proofs.Store.Stocked
import RowStream.Proofs.Stream.Scan

/-!
# `RowStream.Proofs.Stream.Typed` — streams of rows that are what their columns say

A stream that hands rows on or puts them together does not look at the types of their cells. What it
promises to the stream above it is that its rows are what its columns say, and that no call fails
because of columns or types; for that it needs the same promise of the streams and the store below it.

## Contents
- `Cursor.WellTyped` — the promise.
- `Materialized.wellTyped`, `Scan.wellTyped`, `Sealed.wellTyped` — rows at hand, scans, which rename the
  columns of stored rows, and covers.
- `Join.wellTyped` — joins, which put rows together.
- `Aggregate.wellTyped` — aggregates, which make rows of keys and answers.
-/

namespace RowStream

/-- Every call keeps `I` and the columns. No failure has to do with columns or types, and the rows that
are taken are what the columns say. -/
structure Cursor.WellTyped {σ : Type} [Cursor σ] (store : PageStore) (schema : Schema)
    (I : σ → Prop) : Prop where
  /-- The columns stay. -/
  schema_eq : ∀ {s}, I s → Cursor.schema s = schema
  /-- The calls. -/
  obeys : Obeys store (·.Typed schema) (·.isTyping = false) I

/-- The states may be described in another way. -/
theorem Cursor.WellTyped.congr {σ : Type} [Cursor σ] {store : PageStore} {schema : Schema}
    {I I' : σ → Prop} (h : WellTyped store schema I) (hI : ∀ s, I' s ↔ I s) :
    WellTyped store schema I' where
  schema_eq := fun hs => h.schema_eq ((hI _).1 hs)
  obeys := h.obeys.congr hI

variable {store : PageStore}

/-! ## Leaves and covers -/

/-- Rows at hand that are what their columns say stay so. -/
theorem Materialized.wellTyped {s₀ : Materialized} (hrows : ∀ row ∈ s₀.rows, row.Typed s₀.schema) :
    Cursor.WellTyped store s₀.schema (Carrying (·.Typed s₀.schema) s₀) where
  schema_eq := fun hs => (congrArg schema hs.1 : _)
  obeys := obeys hrows

/-- Of stored rows that are what their columns say, the columns of a scan say the same, since they
differ in their names only. -/
theorem Scan.wellTyped (hstore : store.Sound) (hrows : store.Stocked) {s₀ : Scan}
    (h : s₀.WellSet store) :
    Cursor.WellTyped store s₀.schema (Carrying (·.Typed s₀.schema) s₀) where
  schema_eq := fun hs => (congrArg schema hs.1 : _)
  obeys := by
    apply obeys ?_ ?_ ?_ fun _ => id
    · intro page rows hread row hrow
      obtain ⟨t, -, ht, hstored⟩ := PageStore.mem_rows_of_readPage hread hrow
      have hagrees := WellSet.fits hstore h hread row hrow
      exact (hrows t ht row hstored).of_cells rfl hagrees.symm hagrees.symm
    · intro row row' hrow hrebind
      obtain ⟨row'', hrebind', hrow''⟩ := hrow.rebind (Schema.Agrees.refl s₀.schema)
      cases hrebind.symm.trans hrebind'
      exact hrow''
    · intro row e hrow hrebind
      obtain ⟨row', hrebind', -⟩ := hrow.rebind (Schema.Agrees.refl s₀.schema)
      cases hrebind.symm.trans hrebind'

/-- A cover promises what is promised inside. -/
theorem Sealed.wellTyped {σ : Type} [Cursor σ] {schema : Schema} {I : σ → Prop}
    (h : Cursor.WellTyped store schema I) :
    Cursor.WellTyped store schema fun s : Sealed σ => I s.inner where
  schema_eq := fun hs => h.schema_eq hs
  obeys := obeys h.obeys

/-! ## Joins -/

namespace Join

variable {σ τ : Type} [Cursor σ] [Cursor τ] {b : Join Unit Unit} {ls rs : Schema} {I : σ → Prop}
  {J : τ → Prop}

/-- The columns of the condition are those of sides that promise theirs. -/
theorem fields_of_wellSet (hset : b.WellSet ls rs) (hl : ∀ {l}, I l → Cursor.schema l = ls)
    (hr : ∀ {r}, J r → Cursor.schema r = rs) (F : StreamError → Prop) :
    Fields b.predicate F I J := by
  obtain ⟨⟨lt, hlt⟩, rt, hrt⟩ := types_of_checkFields hset.fields
  intro l r e hi hj hmissing
  rw [hl hi, hr hj, Schema.fieldType_eq_ok_iff.2 hlt, Schema.fieldType_eq_ok_iff.2 hrt] at hmissing
  rcases hmissing with hmissing | hmissing <;> cases hmissing

/-- The rows of a join are put together of rows of its sides, under the columns of both. -/
theorem wellTyped [Sorting] (hl : Cursor.WellTyped store ls I) (hr : Cursor.WellTyped store rs J)
    (hset : b.WellSet ls rs) :
    Cursor.WellTyped store b.schema
      (Carrying (·.Typed b.schema) b I J : Join σ τ → Prop) where
  schema_eq := fun hj => (congrArg Join.schema hj.1.1 : _)
  obeys := by
    apply obeys hl.obeys hr.obeys hset.sound (fun _ => id)
      (fields_of_wellSet hset hl.schema_eq hr.schema_eq _)
    intro l r hleft hright
    rw [hset.schema_eq]
    exact hleft.append hright

end Join

/-! ## Aggregates -/

/-- The row of a group with a key of the columns is what the columns of the answer say. -/
theorem Grouping.typed_answerRow {blank : Grouping} {schema : Schema}
    (hschema : blank.schema.Agrees schema) {key : GroupKey} (hkey : blank.Expects key)
    (acc : Accumulator) : (answerRow schema key acc).Typed schema := by
  obtain ⟨hroom, hlength⟩ := hasRoom_of_expects hschema hkey acc
  obtain ⟨-, htypes⟩ := answerValues_fit hroom acc
  exact Row.typed_of_values hlength htypes

namespace Aggregate

variable {σ : Type} [Cursor σ] {b : Aggregate Unit} {child : Schema} {I : σ → Prop}

/-- The rows of an aggregate are made of keys of the columns of its child, and of integers. -/
theorem wellTyped [Grouping.Listing] (h : Cursor.WellTyped store child I) (hset : b.WellSet child) :
    Cursor.WellTyped store b.schema
      (Carrying b.blank.Keyed (·.Typed b.schema) b I : Aggregate σ → Prop) where
  schema_eq := fun ha => (congrArg Aggregate.schema ha.1.1 : _)
  obeys := by
    obtain ⟨hplan, hblank, hschema⟩ := planned_of_wellSet hset
    apply obeys ?_ ?_ h.obeys (fun _ => id) (Grouping.keyed_blank hblank)
    · intro g row g' hg hrow hmerge
      exact hg.merge hplan hrow.conforms hmerge
    · intro g row e hg hrow hmerge
      obtain ⟨total, i, rfl⟩ := hg.overflow hplan hrow.conforms hmerge
      rfl
    · intro g rows hg hrows row hrow
      rw [Grouping.rows_of_expects hg.expects hschema] at hrows
      cases hrows
      obtain ⟨⟨key, acc⟩, hgroup, rfl⟩ := List.mem_map.1 hrow
      exact Grouping.typed_answerRow hschema (hg.expects _ (Grouping.mem_listed.1 hgroup)) acc
    · intro g e hg hrowless
      rw [Grouping.rows_of_expects hg.expects hschema] at hrowless
      cases hrowless

end Aggregate

end RowStream
