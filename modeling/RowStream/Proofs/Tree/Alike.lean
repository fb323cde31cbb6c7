import RowStream.Proofs.Aggregate.Answer
import RowStream.Proofs.Tree.Joined

/-!
# `RowStream.Proofs.Tree.Alike` — trees that ask for the same rows

Two trees ask for the same rows if they have the same conditions, columns and functions over the same
rows. How they find the rows, where the rows of a leaf are kept, and how large the pages and the
blocks are does not change the answer: it only decides the order of the rows and whether the tree can
be opened at all.

## Contents
- `Node.leafRows?`, `Node.Plain` — the rows of a leaf, and trees that only their settings can keep
  from being opened.
- `Node.Explains` — what in a tree explains that it was not opened.
- `Node.Accounted`, `Node.accounted` — a plain tree opens with rows that conform to its columns, or
  explains why it does not.
- `Node.Alike` — two trees that ask for the same rows.
- `Node.schema_agrees`, `Node.rows_perm` — they have the same columns and the same rows.
- `Node.PartOf` — the parts of a tree.
- `Stream.collect_alike` — what is collected of two such trees.
-/

namespace RowStream

open Call

namespace Node

variable {store : PageStore} {shape : Shape} {t : Node shape} [Join.Sorting] [Grouping.Listing]

/-! ## One tree -/

/-- The rows that a leaf holds. -/
def leafRows? (store : PageStore) : {shape : Shape} → Node shape → Option (List Row)
  | .materialized, s => some (Materialized.rows s)
  | .scan, s => (store.table (Scan.table s)).toOption.map Table.rows
  | _, _ => none

/-- The rows of the leaves conform to their columns, the tables have no faults, and nobody has taken
bytes from the accounts of the joins. -/
def Plain (store : PageStore) : {shape : Shape} → Node shape → Prop
  | .materialized, s => ∀ row ∈ Materialized.rows s, row.Conforms (Materialized.schema s)
  | .scan, s =>
    (∀ page, (Scan.table s, page) ∉ store.faults) ∧
      ∀ t, store.table (Scan.table s) = .ok t → ∀ row ∈ t.rows, row.Conforms (Scan.schema s)
  | .sealed _, s => Plain store (Sealed.inner s)
  | .join _ _, j =>
    (Join.budget j).used = 0 ∧ Plain store (Join.left j) ∧ Plain store (Join.right j)
  | .aggregate _, a => Plain store (Aggregate.child a)

/-- Somewhere in the tree, a join has a strategy that cannot be used, or a sum leaves its range. -/
def Explains (store : PageStore) (e : StreamError) : {shape : Shape} → Node shape → Prop
  | .materialized, _ => False
  | .scan, _ => False
  | .sealed _, s => Explains store e (Sealed.inner s)
  | .join _ _, j =>
    (Join.bare j).Refuses (Cursor.schema (Join.left j)) (Cursor.schema (Join.right j)) e ∨
      Explains store e (Join.left j) ∨ Explains store e (Join.right j)
  | .aggregate _, a =>
    (∃ rows, (Cursor.collect store (Aggregate.child a)).result = .ok rows ∧
        (Aggregate.blank a).Overflows rows e) ∨
      Explains store e (Aggregate.child a)

/-- A plain tree that is well-formed and closed throughout. -/
structure Fresh (store : PageStore) (t : Node shape) : Prop where
  /-- The settings fit each other and the store. -/
  wellFormed : t.WellFormed store
  /-- Only its settings can keep it from being opened. -/
  plain : t.Plain store
  /-- No node is open. -/
  closed : t.AllClosed

namespace Fresh

theorem inner {inner : Shape} {s : Node (.sealed inner)} (h : s.Fresh store) :
    Fresh store (Sealed.inner s) :=
  ⟨h.wellFormed, h.plain, h.closed⟩

theorem left {left right : Shape} {j : Node (.join left right)} (h : j.Fresh store) :
    Fresh store (Join.left j) :=
  ⟨h.wellFormed.2.1, h.plain.2.1, h.closed.2.1⟩

theorem right {left right : Shape} {j : Node (.join left right)} (h : j.Fresh store) :
    Fresh store (Join.right j) :=
  ⟨h.wellFormed.2.2, h.plain.2.2, h.closed.2.2⟩

theorem child {child : Shape} {a : Node (.aggregate child)} (h : a.Fresh store) :
    Fresh store (Aggregate.child a) :=
  ⟨h.wellFormed.2, h.plain, h.closed.2⟩

end Fresh

/-- A leaf opens with its rows, under its own columns. -/
theorem opening_of_leafRows {rows : List Row} (h : t.Fresh store)
    (hrows : t.leafRows? store = some rows) :
    ∃ found, (t.profile store).opening = .ok ⟨found, none⟩ ∧
      found.map Row.cells = rows.map Row.cells := by
  cases shape with
  | materialized => exact ⟨Materialized.rows t, rfl, congrArg _ (Option.some.inj hrows)⟩
  | scan =>
    obtain ⟨columns, hcolumns, -⟩ := h.wellFormed
    obtain ⟨found, hfound, -⟩ := PageStore.table_of_columns? hcolumns
    have hheld : (store.table (Scan.table t)).toOption.map Table.rows = some rows := hrows
    rw [hfound] at hheld
    refine ⟨_, Scan.opening_of_no_faults h.plain.1 hfound, ?_⟩
    rw [List.map_map, ← Option.some.inj hheld]
    rfl
  | sealed inner => cases hrows
  | join left right => cases hrows
  | aggregate child => cases hrows

/-- The tree opens with rows that conform to its columns, or explains why it does not. -/
def Accounted (store : PageStore) (t : Node shape) : Prop :=
  (∃ rows, (t.profile store).opening = .ok ⟨rows, none⟩ ∧
      ∀ row ∈ rows, row.Conforms (Cursor.schema t)) ∨
    ∃ e, t.Explains store e ∧ (t.profile store).opening = .error e

theorem accounted_scan {s : Node .scan} (h : s.Fresh store) : s.Accounted store := by
  obtain ⟨columns, hcolumns, -⟩ := h.wellFormed
  obtain ⟨found, hfound, -⟩ := PageStore.table_of_columns? hcolumns
  refine .inl ⟨_, Scan.opening_of_no_faults h.plain.1 hfound, fun row hrow => ?_⟩
  obtain ⟨stored, hstored, rfl⟩ := List.mem_map.1 hrow
  exact (h.plain.2 found hfound stored hstored).of_cells rfl (.refl _)

/-- A join opens if both sides do and its strategy can be used. -/
theorem accounted_join {l r : Shape} {j : Node (.join l r)} (h : j.Fresh store)
    (hleft : Accounted store (Join.left j)) (hright : Accounted store (Join.right j)) :
    j.Accounted store := by
  have hset := h.wellFormed.1
  rcases hleft with ⟨ls, hleft, hl⟩ | ⟨e, hexplains, hleft⟩
  · rcases hright with ⟨rs, hright, hr⟩ | ⟨e, hexplains, hright⟩
    -- both sides open, and the join with whatever its strategy answers
    · have hopening : (j.profile store).opening = (Join.answer (Join.bare j)
          (Cursor.schema (Join.left j)) (Cursor.schema (Join.right j)) ⟨ls, none⟩ ⟨rs, none⟩).map
            fun rows => ⟨rows, none⟩ := by
        have hls : (profile store (Join.left j)).schema = Cursor.schema (Join.left j) :=
          schema_profile _
        have hrs : (profile store (Join.right j)).schema = Cursor.schema (Join.right j) :=
          schema_profile _
        rw [← hls, ← hrs]
        exact Join.opening_of_sides hleft hright
      rcases Join.answer_cases hset (fun _ => h.plain.1) hl hr with
        ⟨rows, hrows, hperm⟩ | ⟨e, hrefused, herror⟩
      · rw [hrows] at hopening
        refine .inl ⟨rows, hopening, fun row hrow => ?_⟩
        show row.Conforms (Join.bare j).schema
        rw [hset.schema_eq]
        exact Predicate.conforms_join hl hr row (hperm.subset hrow)
      · rw [herror] at hopening
        exact .inr ⟨e, .inl hrefused, hopening⟩
    · exact .inr ⟨e, .inr (.inr hexplains), Join.opening_of_right_error hleft hright⟩
  · exact .inr ⟨e, .inr (.inl hexplains), Join.opening_of_left_error hleft⟩

/-- An aggregate opens if its child does and no sum leaves its range. -/
theorem accounted_aggregate (hstore : store.Sound) {c : Shape} {a : Node (.aggregate c)}
    (h : a.Fresh store) (hchild : Accounted store (Aggregate.child a)) : a.Accounted store := by
  have hset := h.wellFormed.1
  rcases hchild with ⟨rows, hchild, hrows⟩ | ⟨e, hexplains, hchild⟩
  · have hopening : (a.profile store).opening = _ := Aggregate.opening_of_child hchild
    rcases Aggregate.answer_cases hset hrows with ⟨g, hanswer, hsummary⟩ | ⟨e, hoverflow, herror⟩
    · rw [hanswer] at hopening
      exact .inl ⟨_, hopening, Aggregate.conforms_of_answer hset hrows hsummary⟩
    -- the overflow is explained by the rows that can be collected of the child
    · have hcollect := (profile_holds hstore h.child.wellFormed).collect_of_opening
        (closed_self store h.child.closed) hchild
      rw [herror] at hopening
      exact .inr ⟨e, .inl ⟨rows, hcollect, hoverflow⟩, hopening⟩
  · exact .inr ⟨e, .inr hexplains, Aggregate.opening_of_child_error hchild⟩

/-- Every plain tree opens with rows that conform to its columns, or explains why it does not. -/
theorem accounted (hstore : store.Sound) (h : t.Fresh store) : t.Accounted store := by
  induction shape with
  | materialized => exact .inl ⟨_, rfl, h.plain⟩
  | scan => exact accounted_scan h
  | sealed inner ih => exact ih h.inner
  | join left right ihl ihr => exact accounted_join h (ihl h.left) (ihr h.right)
  | aggregate child ih => exact accounted_aggregate hstore h (ih h.child)

/-- The rows that a plain join opens with are those of the join of its sides. -/
theorem rows_of_join (hstore : store.Sound) {l r : Shape} {j : Node (.join l r)}
    (h : j.Fresh store) {rows : List Row} (hrows : (j.profile store).opening = .ok ⟨rows, none⟩) :
    ∃ left right, (profile store (Join.left j)).opening = .ok ⟨left, none⟩ ∧
      (profile store (Join.right j)).opening = .ok ⟨right, none⟩ ∧
      rows.Perm ((Join.predicate j).join (Join.schema j) left right) := by
  obtain ⟨leftScript, rightScript, found, hleft, hright, hanswer, hfound⟩ :=
    Join.opening_eq_ok_iff.1 hrows
  rcases accounted hstore h.left with ⟨left, hleft', hl⟩ | ⟨e, -, hleft'⟩
  · rcases accounted hstore h.right with ⟨right, hright', hr⟩ | ⟨e, -, hright'⟩
    · cases hleft.symm.trans hleft'
      cases hright.symm.trans hright'
      cases hfound
      refine ⟨left, right, hleft, hright, ?_⟩
      rw [schema_profile, schema_profile] at hanswer
      rcases Join.answer_cases h.wellFormed.1 (fun _ => h.plain.1) hl hr with
        ⟨joined, hjoined, hperm⟩ | ⟨e, -, herror⟩
      · cases hanswer.symm.trans hjoined
        exact hperm
      · cases hanswer.symm.trans herror
    · cases hright.symm.trans hright'
  · cases hleft.symm.trans hleft'

/-- The rows that a plain aggregate opens with are those of the groups of its child. -/
theorem rows_of_aggregate (hstore : store.Sound) {c : Shape} {a : Node (.aggregate c)}
    (h : a.Fresh store) {rows : List Row} (hrows : (a.profile store).opening = .ok ⟨rows, none⟩) :
    ∃ child g, (profile store (Aggregate.child a)).opening = .ok ⟨child, none⟩ ∧
      Grouping.Summary (Aggregate.blank a) child g ∧
      rows = g.listed.map fun (key, acc) => Grouping.answerRow (Aggregate.schema a) key acc := by
  obtain ⟨script, groups, found, hchild, hanswer, hfound⟩ := Aggregate.opening_eq_ok_iff.1 hrows
  rcases accounted hstore h.child with ⟨child, hchild', hc⟩ | ⟨e, -, hchild'⟩
  · cases hchild.symm.trans hchild'
    cases hfound
    rcases Aggregate.answer_cases h.wellFormed.1 hc with ⟨g, hg, hsummary⟩ | ⟨e, -, herror⟩
    · cases hanswer.symm.trans hg
      exact ⟨child, _, hchild, hsummary, rfl⟩
    · cases hanswer.symm.trans herror
  · cases hchild.symm.trans hchild'

/-- What is collected of a tree is what it opens with. -/
theorem opening_of_collect (hstore : store.Sound) (h : t.Fresh store) {rows : List Row}
    (hrows : (Cursor.collect store t).result = .ok rows) :
    (t.profile store).opening = .ok ⟨rows, none⟩ :=
  ((profile_holds hstore h.wellFormed).closed_of_collect (own_self store t) hrows).2

/-- A plain tree that can be opened can be collected. -/
theorem collect_of_start (hstore : store.Sound) (h : t.Fresh store)
    (hstart : (Cursor.start store t).result = .ok ()) :
    ∃ rows, (t.profile store).opening = .ok ⟨rows, none⟩ ∧
      (Cursor.collect store t).result = .ok rows := by
  have hholds := profile_holds hstore h.wellFormed
  have hclosed := closed_self store h.closed
  obtain ⟨full, hfull, -⟩ := hholds.start.of_ok hclosed hstart
  rcases accounted hstore h with ⟨rows, hrows, -⟩ | ⟨e, -, he⟩
  · exact ⟨rows, hrows, hholds.collect_of_opening hclosed hrows⟩
  · cases hfull.symm.trans he

/-- A plain tree that cannot be opened explains why. -/
theorem explains_of_start (hstore : store.Sound) (h : t.Fresh store) {e : StreamError}
    (hstart : (Cursor.start store t).result = .error e) : t.Explains store e := by
  have hholds := profile_holds hstore h.wellFormed
  have hopening := (hholds.start.of_error (closed_self store h.closed) hstart).1
  rcases accounted hstore h with ⟨rows, hrows, -⟩ | ⟨e', hexplains, he'⟩
  · cases hopening.symm.trans hrows
  · cases hopening.symm.trans he'
    exact hexplains

/-- An aggregate whose child can be collected opens if the cells of every group fit. -/
theorem start_of_fits (hstore : store.Sound) {c : Shape} {a : Node (.aggregate c)}
    (h : a.Fresh store) {rows : List Row}
    (hrows : (Cursor.collect store (Aggregate.child a)).result = .ok rows)
    (hfits : ∀ key, Accumulator.Fits ((Aggregate.blank a).cellsOf key rows)) :
    (Cursor.start store a).result = .ok () := by
  have hchild := opening_of_collect hstore h.child hrows
  rcases accounted hstore h.child with ⟨found, hfound, hconforms⟩ | ⟨e, -, he⟩
  · cases hchild.symm.trans hfound
    rcases Aggregate.answer_cases h.wellFormed.1 hconforms with ⟨g, hanswer, -⟩ | ⟨e, hoverflow, -⟩
    · have hopening : (a.profile store).opening = .ok ⟨_, none⟩ :=
        Aggregate.opening_eq_ok_iff.2 ⟨_, _, _, hchild, hanswer, rfl⟩
      exact (profile_holds hstore h.wellFormed).start_of_opening (closed_self store h.closed) hopening
    · cases hoverflow with
      | sum _ _ hnot => exact absurd (hfits _) hnot
  · cases hchild.symm.trans he

/-- The trees of which a tree consists: it itself, and the parts of the trees below it. -/
inductive PartOf {shape : Shape} (part : Node shape) : {whole : Shape} → Node whole → Prop where
  /-- The tree itself. -/
  | refl : PartOf part part
  /-- The parts of what is covered. -/
  | inner {inner : Shape} {s : Node (.sealed inner)} :
    PartOf part (Sealed.inner s) → PartOf part s
  /-- The parts of the left side of a join. -/
  | left {left right : Shape} {j : Node (.join left right)} :
    PartOf part (Join.left j) → PartOf part j
  /-- The parts of the right side of a join. -/
  | right {left right : Shape} {j : Node (.join left right)} :
    PartOf part (Join.right j) → PartOf part j
  /-- The parts of the child of an aggregate. -/
  | child {child : Shape} {a : Node (.aggregate child)} :
    PartOf part (Aggregate.child a) → PartOf part a

theorem Fresh.partOf {whole : Shape} {t : Node whole} {part : Node shape} (h : t.Fresh store)
    (hpart : part.PartOf t) : part.Fresh store := by
  induction hpart with
  | refl => exact h
  | inner _ ih => exact ih h.inner
  | left _ ih => exact ih h.left
  | right _ ih => exact ih h.right
  | child _ ih => exact ih h.child

/-! ## Two trees -/

/-- The two trees, each over its own store, ask for the same rows: their leaves hold rows with the
same cells, in any order, and apart from covers they have the same nodes, with the same conditions,
columns and functions. -/
inductive Alike (store₁ store₂ : PageStore) :
    {shape₁ shape₂ : Shape} → Node shape₁ → Node shape₂ → Prop where
  /-- Two leaves, of whatever kind. -/
  | leaf {shape₁ shape₂ : Shape} {t₁ : Node shape₁} {t₂ : Node shape₂} {rows₁ rows₂ : List Row} :
    t₁.leafRows? store₁ = some rows₁ → t₂.leafRows? store₂ = some rows₂ →
    (Cursor.schema t₁).Agrees (Cursor.schema t₂) →
    (rows₁.map Row.cells).Perm (rows₂.map Row.cells) → Alike store₁ store₂ t₁ t₂
  /-- Two joins on the same condition, with whatever strategies and blocks. -/
  | join {l₁ r₁ l₂ r₂ : Shape} {j₁ : Node (.join l₁ r₁)} {j₂ : Node (.join l₂ r₂)} :
    Join.predicate j₁ = Join.predicate j₂ →
    Alike store₁ store₂ (Join.left j₁) (Join.left j₂) →
    Alike store₁ store₂ (Join.right j₁) (Join.right j₂) → Alike store₁ store₂ j₁ j₂
  /-- Two aggregates of the same columns by the same function. -/
  | aggregate {c₁ c₂ : Shape} {a₁ : Node (.aggregate c₁)} {a₂ : Node (.aggregate c₂)} :
    Aggregate.field a₁ = Aggregate.field a₂ →
    Aggregate.groupField a₁ = Aggregate.groupField a₂ → Aggregate.fn a₁ = Aggregate.fn a₂ →
    Alike store₁ store₂ (Aggregate.child a₁) (Aggregate.child a₂) → Alike store₁ store₂ a₁ a₂
  /-- A cover on the first tree. -/
  | coverLeft {inner shape₂ : Shape} {s : Node (.sealed inner)} {t₂ : Node shape₂} :
    Alike store₁ store₂ (Sealed.inner s) t₂ → Alike store₁ store₂ s t₂
  /-- A cover on the second tree. -/
  | coverRight {shape₁ inner : Shape} {t₁ : Node shape₁} {s : Node (.sealed inner)} :
    Alike store₁ store₂ t₁ (Sealed.inner s) → Alike store₁ store₂ t₁ s

section Alike

variable {store₁ store₂ : PageStore} {shape₁ shape₂ : Shape} {t₁ : Node shape₁} {t₂ : Node shape₂}

/-- Trees that ask for the same rows have columns of the same types. -/
theorem schema_agrees (h : Alike store₁ store₂ t₁ t₂) (h₁ : t₁.Fresh store₁)
    (h₂ : t₂.Fresh store₂) : (Cursor.schema t₁).Agrees (Cursor.schema t₂) := by
  induction h with
  | leaf _ _ hagrees _ => exact hagrees
  | @join l₁ r₁ l₂ r₂ j₁ j₂ _ _ _ ihl ihr =>
    have hl : (Cursor.schema (Join.left j₁)).types = (Cursor.schema (Join.left j₂)).types :=
      ihl h₁.left h₂.left
    have hr : (Cursor.schema (Join.right j₁)).types = (Cursor.schema (Join.right j₂)).types :=
      ihr h₁.right h₂.right
    show (Join.bare j₁).schema.types = (Join.bare j₂).schema.types
    rw [h₁.wellFormed.1.schema_eq, h₂.wellFormed.1.schema_eq, Schema.types_append,
      Schema.types_append, hl, hr]
  | aggregate hfield hgroup hfn _ ih =>
    exact (Aggregate.wellSet_agrees h₁.wellFormed.1 h₂.wellFormed.1 (ih h₁.child h₂.child) hfield
      hgroup hfn).2
  | coverLeft _ ih => exact ih h₁.inner h₂
  | coverRight _ ih => exact ih h₁ h₂.inner

/-- Trees that ask for the same rows give them, if they open at all. -/
theorem rows_perm (hstore₁ : store₁.Sound) (hstore₂ : store₂.Sound)
    (h : Alike store₁ store₂ t₁ t₂) (h₁ : t₁.Fresh store₁) (h₂ : t₂.Fresh store₂)
    {rows₁ rows₂ : List Row} (hrows₁ : (t₁.profile store₁).opening = .ok ⟨rows₁, none⟩)
    (hrows₂ : (t₂.profile store₂).opening = .ok ⟨rows₂, none⟩) :
    (rows₁.map Row.cells).Perm (rows₂.map Row.cells) := by
  induction h generalizing rows₁ rows₂ with
  | leaf hheld₁ hheld₂ _ hperm =>
    obtain ⟨found₁, hfound₁, hcells₁⟩ := opening_of_leafRows h₁ hheld₁
    obtain ⟨found₂, hfound₂, hcells₂⟩ := opening_of_leafRows h₂ hheld₂
    cases hfound₁.symm.trans hrows₁
    cases hfound₂.symm.trans hrows₂
    rw [hcells₁, hcells₂]
    exact hperm
  | @join l₁ r₁ l₂ r₂ j₁ j₂ hpredicate _ _ ihl ihr =>
    obtain ⟨left₁, right₁, hleft₁, hright₁, hjoined₁⟩ := rows_of_join hstore₁ h₁ hrows₁
    obtain ⟨left₂, right₂, hleft₂, hright₂, hjoined₂⟩ := rows_of_join hstore₂ h₂ hrows₂
    -- both joins are over the same rows, up to order and names
    have hl := Row.bare_perm_iff.2 (ihl h₁.left h₂.left hleft₁ hleft₂)
    have hr := Row.bare_perm_iff.2 (ihr h₁.right h₂.right hright₁ hright₂)
    rw [← hpredicate] at hjoined₂
    refine Row.bare_perm_iff.1 ((hjoined₁.map Row.bare).trans ?_)
    exact (Predicate.join_bare_perm _ _ _ hl hr).trans (hjoined₂.map Row.bare).symm
  | aggregate hfield hgroup hfn halike ih =>
    obtain ⟨child₁, g₁, hchild₁, hsummary₁, rfl⟩ := rows_of_aggregate hstore₁ h₁ hrows₁
    obtain ⟨child₂, g₂, hchild₂, hsummary₂, rfl⟩ := rows_of_aggregate hstore₂ h₂ hrows₂
    have hagrees := schema_agrees halike h₁.child h₂.child
    -- the groups begin alike, and take the same rows in another order
    have hblank := (Aggregate.wellSet_agrees h₁.wellFormed.1 h₂.wellFormed.1 hagrees hfield hgroup
      hfn).1
    have hperm := Row.bare_perm_iff.2 (ih h₁.child h₂.child hchild₁ hchild₂)
    exact Aggregate.answer_perm hsummary₁ hsummary₂ hblank hperm _ _
  | coverLeft _ ih => exact ih h₁.inner h₂ hrows₁ hrows₂
  | coverRight _ ih => exact ih h₁ h₂.inner hrows₁ hrows₂

/-- Aggregates of trees that ask for the same rows take the same cells into their groups, so that
the sums of both stay in their range, or those of neither. -/
theorem fits_of_alike (hstore₁ : store₁.Sound) (hstore₂ : store₂.Sound) {c₁ c₂ : Shape}
    {a₁ : Node (.aggregate c₁)} {a₂ : Node (.aggregate c₂)} (h : Alike store₁ store₂ a₁ a₂)
    (h₁ : a₁.Fresh store₁) (h₂ : a₂.Fresh store₂) {rows₁ rows₂ : List Row}
    (hrows₁ : (Cursor.collect store₁ (Aggregate.child a₁)).result = .ok rows₁)
    (hrows₂ : (Cursor.collect store₂ (Aggregate.child a₂)).result = .ok rows₂)
    (hfits : ∀ key, Accumulator.Fits ((Aggregate.blank a₁).cellsOf key rows₁)) :
    ∀ key, Accumulator.Fits ((Aggregate.blank a₂).cellsOf key rows₂) := by
  intro key
  cases h with
  | leaf hheld _ _ _ => cases hheld
  | aggregate hfield hgroup hfn halike =>
    have hagrees := schema_agrees halike h₁.child h₂.child
    have hblank : Aggregate.blank a₁ = Aggregate.blank a₂ :=
      (Aggregate.wellSet_agrees h₁.wellFormed.1 h₂.wellFormed.1 hagrees hfield hgroup hfn).1
    have hperm := rows_perm hstore₁ hstore₂ halike h₁.child h₂.child
      (opening_of_collect hstore₁ h₁.child hrows₁) (opening_of_collect hstore₂ h₂.child hrows₂)
    rw [← hblank]
    exact Accumulator.fits_perm (Grouping.cellsOf_perm (Row.bare_perm_iff.2 hperm) key) (hfits key)

end Alike

end Node

namespace Stream

/-- Two trees that ask for the same rows, closed throughout and with nothing but their settings to
keep them from being opened, differ in how they find the rows. If both can be opened, the same rows
are collected of them, up to their order. If one cannot be opened, that is due to one of its joins,
whose table of values is asked for a range or whose block does not hold a row, or to one of its sums,
whose cells do not fit. Sums at the same place of both trees stay in their range, in both trees, if
the cells of one of them fit. -/
theorem collect_alike [Join.Sorting] [Grouping.Listing] {store₁ store₂ : PageStore}
    (hstore₁ : store₁.Reached) (hstore₂ : store₂.Reached) {s₁ s₂ : Stream} (hs₁ : s₁.Built store₁)
    (hs₂ : s₂.Built store₂) (hclosed₁ : s₁.node.AllClosed) (hclosed₂ : s₂.node.AllClosed)
    (hplain₁ : s₁.node.Plain store₁) (hplain₂ : s₂.node.Plain store₂)
    (halike : s₁.node.Alike store₁ store₂ s₂.node) :
    ((Cursor.start store₁ s₁.node).result = .ok () →
        (Cursor.start store₂ s₂.node).result = .ok () →
        ∃ rows₁ rows₂, (Cursor.collect store₁ s₁.node).result = .ok rows₁ ∧
          (Cursor.collect store₂ s₂.node).result = .ok rows₂ ∧
          (rows₁.map Row.cells).Perm (rows₂.map Row.cells)) ∧
      (∀ e, (Cursor.start store₁ s₁.node).result = .error e → s₁.node.Explains store₁ e) ∧
      (∀ e, (Cursor.start store₂ s₂.node).result = .error e → s₂.node.Explains store₂ e) ∧
      ∀ {c₁ c₂ : Shape} (a₁ : Node (.aggregate c₁)) (a₂ : Node (.aggregate c₂)),
        a₁.PartOf s₁.node → a₂.PartOf s₂.node → a₁.Alike store₁ store₂ a₂ →
        ∀ rows₁, (Cursor.collect store₁ (Aggregate.child a₁)).result = .ok rows₁ →
          (∀ key, Accumulator.Fits ((Aggregate.blank a₁).cellsOf key rows₁)) →
          (Cursor.start store₁ a₁).result = .ok () ∧
            ∀ rows₂, (Cursor.collect store₂ (Aggregate.child a₂)).result = .ok rows₂ →
              (Cursor.start store₂ a₂).result = .ok () := by
  have hsound₁ := PageStore.sound_of_reached hstore₁
  have hsound₂ := PageStore.sound_of_reached hstore₂
  have h₁ : s₁.node.Fresh store₁ := ⟨wellFormed_of_built hs₁, hplain₁, hclosed₁⟩
  have h₂ : s₂.node.Fresh store₂ := ⟨wellFormed_of_built hs₂, hplain₂, hclosed₂⟩
  refine ⟨?_, ?_, ?_, ?_⟩
  -- what opens can be collected, and what is collected is what it opened with
  · intro hstart₁ hstart₂
    obtain ⟨rows₁, hrows₁, hcollect₁⟩ := Node.collect_of_start hsound₁ h₁ hstart₁
    obtain ⟨rows₂, hrows₂, hcollect₂⟩ := Node.collect_of_start hsound₂ h₂ hstart₂
    exact ⟨rows₁, rows₂, hcollect₁, hcollect₂,
      Node.rows_perm hsound₁ hsound₂ halike h₁ h₂ hrows₁ hrows₂⟩
  · exact fun e he => Node.explains_of_start hsound₁ h₁ he
  · exact fun e he => Node.explains_of_start hsound₂ h₂ he
  -- parts of such trees are such trees
  · intro c₁ c₂ a₁ a₂ hpart₁ hpart₂ hsame rows₁ hrows₁ hfits₁
    refine ⟨Node.start_of_fits hsound₁ (h₁.partOf hpart₁) hrows₁ hfits₁, fun rows₂ hrows₂ => ?_⟩
    refine Node.start_of_fits hsound₂ (h₂.partOf hpart₂) hrows₂ ?_
    exact Node.fits_of_alike hsound₁ hsound₂ hsame (h₁.partOf hpart₁) (h₂.partOf hpart₂) hrows₁
      hrows₂ hfits₁

/-- Two joins with a column that lacks a value: through a table of values over rows at hand, and by
blocks that hold one row each over a stored table and a cover. -/
theorem collect_alike_of_columns :
    ∃ scan s₁ s₂, Scan.make (columnStore [some 2]) ⟨0⟩ "a" = .ok scan ∧
      Stream.join { strategy := .hash } 0 ⟨0, .eq, 0⟩ (column [some 2]) (column [some 2, none]) =
        .ok s₁ ∧
      Stream.join { joinBufferBytes := 8 } 1 ⟨0, .eq, 0⟩ (ofScan scan) (column [none, some 2]).cover =
        .ok s₂ ∧
      ∃ rows₁ rows₂, (Cursor.collect (PageStore.empty 64) s₁.node).result = .ok rows₁ ∧
        (Cursor.collect (columnStore [some 2]) s₂.node).result = .ok rows₂ ∧
        (rows₁.map Row.cells).Perm (rows₂.map Row.cells) := by
  have hstored : ∀ t, (columnStore [some 2]).table ⟨0⟩ = .ok t →
      ∀ row ∈ t.rows, row.Conforms ((Schema.ofTypes [.int]).qualify "a") := by
    rintro t ⟨⟩ row hrow
    obtain rfl := List.mem_singleton.1 hrow
    exact (conforms_column [some 2] _ (.head _)).of_cells rfl rfl
  have hscan : Scan.make (columnStore [some 2]) ⟨0⟩ "a" = .ok _ := rfl
  have hjoin₁ : Stream.join { strategy := .hash } 0 ⟨0, .eq, 0⟩ (column [some 2])
      (column [some 2, none]) = .ok _ := rfl
  have hjoin₂ : Stream.join { joinBufferBytes := 8 } 1 ⟨0, .eq, 0⟩
      (ofScan ⟨⟨0⟩, "a", (Schema.ofTypes [.int]).qualify "a", none⟩)
      (column [none, some 2]).cover = .ok _ := rfl
  obtain ⟨hrows, hfail₁, hfail₂, -⟩ := collect_alike (.empty 64) (reached_columnStore [some 2])
    (.join (built_column _ _) (built_column _ _) hjoin₁)
    (.join (.scan hscan) (.cover (built_column _ _)) hjoin₂)
    ⟨rfl, rfl, rfl⟩ ⟨rfl, rfl, rfl⟩ ⟨rfl, conforms_column _, conforms_column _⟩
    ⟨rfl, ⟨nofun, hstored⟩, conforms_column _⟩
    (.join rfl (.leaf rfl rfl rfl .rfl) (.coverRight (.leaf rfl rfl rfl (.swap _ _ _))))
  -- none of the reasons for a failure applies, so both joins open
  have hok : ∀ {x : Except StreamError Unit}, (∀ e, x ≠ .error e) → x = .ok () := by
    rintro (e | ⟨⟩) hx
    · exact absurd rfl (hx e)
    · rfl
  refine ⟨_, _, _, hscan, hjoin₁, hjoin₂, hrows (hok fun e he => ?_) (hok fun e he => ?_)⟩
  · rcases hfail₁ e he with hrefused | ⟨⟨⟩⟩ | ⟨⟨⟩⟩
    cases hrefused with
    | hash _ hop => exact hop rfl
    | wide _ hs _ _ => cases hs
  · rcases hfail₂ e he with hrefused | ⟨⟨⟩⟩ | ⟨⟨⟩⟩
    cases hrefused with
    | hash hs _ => cases hs
    | wide _ _ hrow hwide =>
      rcases hrow with rfl | rfl
      · exact absurd hwide (by decide)
      · exact absurd hwide (by decide)

end Stream

end RowStream
