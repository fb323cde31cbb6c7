import RowStream.Proofs.Aggregate.Profile
import RowStream.Proofs.Join.Profile
import RowStream.Proofs.Stream.Scan
import RowStream.Proofs.Tree.Request

/-!
# `RowStream.Proofs.Tree.Profile` — the profile of a tree

The profile of a tree is put together from the profiles of its nodes. It holds for every tree that
is well-formed, which is to say that the settings of its nodes fit each other and the store.

## Contents
- `Node.profile` — what is known of a tree.
- `Node.WellFormed` — the settings of a tree fit each other and the store.
- `Node.profile_holds`, `Node.stays` — a well-formed tree is as its profile says, and no call changes
  its settings.
- `Node.profile_congr` — a profile depends only on what is read of the store.
-/

namespace RowStream

open Call

namespace Node

variable {store : PageStore} [Join.Sorting] [Grouping.Listing]

/-- What is known of a tree. -/
def profile (store : PageStore) : {shape : Shape} → Node shape → Profile (Node shape)
  | .materialized, s => Materialized.profile s
  | .scan, s => Scan.profile store s
  | .sealed _, s => Sealed.profile (profile store (Sealed.inner s))
  | .join _ _, j =>
    Join.profile (Join.bare j) (profile store (Join.left j)) (profile store (Join.right j))
  | .aggregate _, a => Aggregate.profile (Aggregate.bare a) (profile store (Aggregate.child a))

/-- The settings of a tree fit each other and the store. -/
def WellFormed (store : PageStore) : {shape : Shape} → Node shape → Prop
  | .materialized, _ => True
  | .scan, s => Scan.WellSet store s
  | .sealed _, s => WellFormed store (Sealed.inner s)
  | .join _ _, j =>
    (Join.bare j).WellSet (Cursor.schema (Join.left j)) (Cursor.schema (Join.right j)) ∧
      WellFormed store (Join.left j) ∧ WellFormed store (Join.right j)
  | .aggregate _, a =>
    (Aggregate.bare a).WellSet (Cursor.schema (Aggregate.child a)) ∧
      WellFormed store (Aggregate.child a)

/-- A well-formed tree is as its profile says. -/
theorem profile_holds (hstore : store.Sound) {shape : Shape} {t : Node shape}
    (h : t.WellFormed store) : (t.profile store).Holds store := by
  induction shape with
  | materialized => exact Materialized.profile_holds t
  | scan => exact Scan.profile_holds (Scan.WellSet.fits hstore h)
  | sealed inner ih => exact Sealed.profile_holds (ih h)
  | join left right ihl ihr => exact Join.profile_holds (ihl h.2.1) (ihr h.2.2) h.1.sound
  | aggregate child ih => exact Aggregate.profile_holds (ih h.2)

/-- No call changes the settings of a tree, whatever has become of the store. -/
theorem stays (store' : PageStore) {shape : Shape} {t : Node shape} (h : t.WellFormed store) :
    Cursor.Stays store' (t.profile store).own := by
  induction shape with
  | materialized => exact Materialized.stays t
  | scan => exact Scan.stays t
  | sealed inner ih => exact Sealed.stays (ih h)
  | join left right ihl ihr => exact Join.stays (ihl h.2.1) (ihr h.2.2) h.1.sound
  | aggregate child ih => exact Aggregate.stays (ih h.2)

/-- A tree has its own profile. -/
theorem own_self (store : PageStore) {shape : Shape} (t : Node shape) : (t.profile store).own t := by
  induction shape with
  | materialized => exact rfl
  | scan => exact rfl
  | sealed inner ih => exact ih _
  | join left right ihl ihr => exact ⟨rfl, ihl _, ihr _⟩
  | aggregate child ih => exact ⟨rfl, ih _⟩

/-- Trees have one profile together. -/
theorem own_symm {shape : Shape} {t t' : Node shape} (h : (t.profile store).own t') :
    (t'.profile store).own t := by
  induction shape with
  | materialized => exact Eq.symm h
  | scan => exact Eq.symm h
  | sealed inner ih => exact ih h
  | join left right ihl ihr => exact ⟨h.1.symm, ihl h.2.1, ihr h.2.2⟩
  | aggregate child ih => exact ⟨h.1.symm, ih h.2⟩

/-- The columns of a profile are those of the tree. -/
theorem schema_profile {shape : Shape} (t : Node shape) :
    (t.profile store).schema = Cursor.schema t := by
  induction shape with
  | materialized => rfl
  | scan => rfl
  | sealed inner ih => exact ih _
  | join left right => rfl
  | aggregate child => rfl

/-- A tree whose outermost node is closed rests. -/
theorem resting_self (store : PageStore) {shape : Shape} {t : Node shape} (h : t.isOpen = false) :
    (t.profile store).resting t := by
  have hnone : ∀ {α : Type} {o : Option α}, o.isSome = false → o = none := by simp
  induction shape with
  | materialized =>
    obtain ⟨schema, rows, pending⟩ := t
    cases hnone h
    rfl
  | scan =>
    obtain ⟨table, qualifier, schema, position⟩ := t
    cases hnone h
    rfl
  | sealed inner ih => exact ih h
  | join left right => exact ⟨hnone h, rfl, own_self store _, own_self store _⟩
  | aggregate child => exact ⟨hnone h, rfl, own_self store _⟩

/-- A tree without an open node is closed throughout. -/
theorem closed_self (store : PageStore) {shape : Shape} {t : Node shape} (h : t.AllClosed) :
    (t.profile store).closed t := by
  induction shape with
  | materialized => exact resting_self store (not_isOpen_of_allClosed h)
  | scan => exact resting_self store (not_isOpen_of_allClosed h)
  | sealed inner ih => exact ih h
  | join left right ihl ihr => exact ⟨h.1, rfl, ihl h.2.1, ihr h.2.2⟩
  | aggregate child ih => exact ⟨h.1, rfl, ih h.2⟩

/-- Trees of one profile have the same columns. -/
theorem schema_eq_of_own {shape : Shape} {t t' : Node shape} (h : (t.profile store).own t') :
    Cursor.schema t' = Cursor.schema t := by
  induction shape with
  | materialized => exact (congrArg Materialized.schema h : _)
  | scan => exact (congrArg Scan.schema h : _)
  | sealed inner ih => exact ih h
  | join left right => exact (congrArg Join.schema h.1 : _)
  | aggregate child => exact (congrArg Aggregate.schema h.1 : _)

/-- Trees of one profile are well-formed together. -/
theorem wellFormed_of_own {shape : Shape} {t t' : Node shape} (h : t.WellFormed store)
    (ht : (t.profile store).own t') : t'.WellFormed store := by
  induction shape with
  | materialized => trivial
  | scan =>
    obtain ⟨columns, hcolumns, hagrees⟩ := h
    have htable : Scan.table t' = Scan.table t := (congrArg Scan.table ht : _)
    have hschema : Scan.schema t' = Scan.schema t := (congrArg Scan.schema ht : _)
    exact ⟨columns, htable ▸ hcolumns, hschema ▸ hagrees⟩
  | sealed inner ih => exact ih h ht
  | join left right ihl ihr =>
    obtain ⟨hbare, hl, hr⟩ := ht
    refine ⟨?_, ihl h.2.1 hl, ihr h.2.2 hr⟩
    rw [hbare, schema_eq_of_own hl, schema_eq_of_own hr]
    exact h.1
  | aggregate child ih =>
    obtain ⟨hbare, hc⟩ := ht
    refine ⟨?_, ih h.2 hc⟩
    rw [hbare, schema_eq_of_own hc]
    exact h.1

/-- Only what is read of the store plays a part in a profile. -/
theorem profile_congr {store' : PageStore} (h : store.ReadsLike store') {shape : Shape}
    (t : Node shape) : t.profile store' = t.profile store := by
  induction shape with
  | materialized => rfl
  | scan => exact Scan.profile_congr h t
  | sealed inner ih => exact congrArg Sealed.profile (ih _)
  | join left right ihl ihr =>
    unfold profile
    rw [ihl, ihr]
  | aggregate child ih =>
    unfold profile
    rw [ih]

/-- The counters of the store play no part in a profile. -/
theorem profile_countReads (store : PageStore) (reads : List TableId) {shape : Shape}
    (t : Node shape) : t.profile (store.countReads reads) = t.profile store :=
  profile_congr (store.readsLike_countReads reads) t

end Node

end RowStream
