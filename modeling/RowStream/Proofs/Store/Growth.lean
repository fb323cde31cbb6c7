import Mathlib.Logic.Relation
import RowStream.Proofs.Store.Sound

/-!
# `RowStream.Proofs.Store.Growth` — how a table grows

A step of a store puts at most one row into a table, at the end of its last page or on a new page
behind it. So the pages before the last never change again, the rows that are there keep their
numbers, and every row remembers the page and the slot at which it is found.

## Contents
- `Table.rowsUpTo` — the rows of the first pages.
- `Table.pages_append_of_full`, `Table.pages_append_of_room`, `Table.append_cases` — where a row that is
  added comes to lie.
- `Table.Step`, `PageStore.Step.tables` — what a step of a store does to each of its tables.
- `Table.Placed`, `placed_of_reached` — no page is empty, and rows remember their places.
- `Table.Grows`, `grows_of_later` — a table later on: full pages stay, and rows come last.
-/

namespace RowStream

namespace Table

/-! ## The pages of a table -/

/-- The rows of the first `pages` pages. -/
def rowsUpTo (t : Table) (pages : Nat) : List Row := (t.pages.toList.take pages).flatMap Array.toList

variable {t t' t'' : Table}

/-- The rows of all pages are the rows. -/
theorem rowsUpTo_size (t : Table) : t.rowsUpTo t.pages.size = t.rows := by
  unfold rowsUpTo rows
  rw [← Array.length_toList, List.take_length]

/-- One page more has the rows of that page more. -/
theorem rowsUpTo_succ {k : Nat} (h : k < t.pages.size) :
    t.rowsUpTo (k + 1) = t.rowsUpTo k ++ t.pages[k].toList := by
  unfold rowsUpTo
  have hlen : k < t.pages.toList.length := h
  rw [List.take_add_one, List.getElem?_eq_getElem hlen, List.flatMap_append]
  simp

/-- The first pages hold the first rows. -/
theorem rowsUpTo_prefix (t : Table) (k : Nat) : t.rowsUpTo k <+: t.rows := by
  refine ⟨(t.pages.toList.drop k).flatMap Array.toList, ?_⟩
  unfold rowsUpTo rows
  rw [← List.flatMap_append, List.take_append_drop]

/-- A row of the first pages lies on one of them. -/
theorem mem_rowsUpTo {k : Nat} {row : Row} (h : row ∈ t.rowsUpTo k) :
    ∃ page, ∃ hpage : page < t.pages.size, page < k ∧ row ∈ t.pages[page].toList := by
  obtain ⟨rows, hrows, hrow⟩ := List.mem_flatMap.1 h
  obtain ⟨page, hpage, rfl⟩ := List.mem_iff_getElem.1 hrows
  have hpage' : page < k ∧ page < t.pages.size := by
    rw [List.length_take, Array.length_toList] at hpage
    omega
  refine ⟨page, hpage'.2, hpage'.1, ?_⟩
  rw [List.getElem_take] at hrow
  exact hrow

/-! ## One more row -/

section Append

variable {pageRows : Nat} {page : Array Row}

/-- Behind a full page, or where there is none, a row comes onto a new page. -/
theorem nextPlace_of_full (h : ∀ page, t.pages.back? = some page → pageRows ≤ page.size) :
    t.nextPlace pageRows = ⟨t.pages.size, 0⟩ := by
  unfold nextPlace
  cases hback : t.pages.back? with
  | none => rw [Array.back?_eq_none_iff.1 hback]; rfl
  | some page => exact if_neg (Nat.not_lt.2 (h page hback))

theorem pages_append_of_full (h : ∀ page, t.pages.back? = some page → pageRows ≤ page.size)
    (row : Row) : (t.append pageRows row).pages =
      t.pages.push #[{ row with recordId := some (t.nextPlace pageRows) }] := by
  unfold append
  cases hback : t.pages.back? with
  | none => rw [Array.back?_eq_none_iff.1 hback]; rfl
  | some page =>
    simp only
    rw [if_neg (Nat.not_lt.2 (h page hback))]

/-- While the last page has room, a row comes to its end. -/
theorem nextPlace_of_room (hback : t.pages.back? = some page) (hroom : page.size < pageRows) :
    t.nextPlace pageRows = ⟨t.pages.size - 1, page.size⟩ := by
  unfold nextPlace
  rw [hback]
  exact if_pos hroom

theorem pages_append_of_room (hback : t.pages.back? = some page) (hroom : page.size < pageRows)
    (row : Row) : (t.append pageRows row).pages =
      t.pages.pop.push (page.push { row with recordId := some (t.nextPlace pageRows) }) := by
  unfold append
  rw [hback]
  simp only
  rw [if_pos hroom]

end Append

/-- A row that is added comes to the end of the last page or onto a new page, and its place says
which. -/
theorem append_cases (t : Table) (pageRows : Nat) (row : Row) :
    (t.nextPlace pageRows = ⟨t.pages.size, 0⟩ ∧
      (t.append pageRows row).pages =
        t.pages.push #[{ row with recordId := some (t.nextPlace pageRows) }]) ∨
    ∃ (full : Array (Array Row)) (page : Array Row), t.pages = full.push page ∧
      t.nextPlace pageRows = ⟨full.size, page.size⟩ ∧
      (t.append pageRows row).pages =
        full.push (page.push { row with recordId := some (t.nextPlace pageRows) }) := by
  by_cases hfull : ∀ page, t.pages.back? = some page → pageRows ≤ page.size
  · exact .inl ⟨nextPlace_of_full hfull, pages_append_of_full hfull row⟩
  · obtain ⟨page, hback, hroom⟩ : ∃ page, t.pages.back? = some page ∧ page.size < pageRows := by
      simpa using hfull
    obtain ⟨full, hpages⟩ := Array.back?_eq_some_iff.1 hback
    refine .inr ⟨full, page, hpages, ?_, ?_⟩
    · rw [nextPlace_of_room hback hroom, hpages, Array.size_push]
      rfl
    · rw [pages_append_of_room hback hroom, hpages, Array.pop_push]

/-! ## Rows that remember their places -/

/-- No page is empty, and every row remembers the page and the slot at which it is found. -/
structure Placed (t : Table) : Prop where
  /-- Every page has a row. -/
  page_ne_nil : ∀ {page : Nat} {rows : Array Row}, t.pages[page]? = some rows → rows.toList ≠ []
  /-- The row in a slot says so. -/
  recordId_eq : ∀ {page slot : Nat} {rows : Array Row} {row : Row}, t.pages[page]? = some rows →
    rows[slot]? = some row → row.recordId = some ⟨page, slot⟩

/-- A table without pages has nothing to remember. -/
theorem placed_of_no_pages (h : t.pages = #[]) : t.Placed where
  page_ne_nil := by
    intro page rows hrows
    simp [h] at hrows
  recordId_eq := by
    intro page slot rows row hrows
    simp [h] at hrows

/-- A last page whose rows remember it, behind pages that were there before. -/
theorem Placed.push (h : t.Placed) {pages : Array (Array Row)} {last : Array Row}
    (hpages : t'.pages = pages.push last)
    (hold : ∀ {page : Nat} {rows : Array Row}, pages[page]? = some rows → t.pages[page]? = some rows)
    (hne : last.toList ≠ [])
    (hlast : ∀ {slot : Nat} {row : Row}, last[slot]? = some row →
      row.recordId = some ⟨pages.size, slot⟩) : t'.Placed := by
  -- a page is the last one or was there before
  have hcases : ∀ {page : Nat} {rows : Array Row}, t'.pages[page]? = some rows →
      (page = pages.size ∧ rows = last) ∨ t.pages[page]? = some rows := by
    intro page rows hrows
    rw [hpages, Array.getElem?_push] at hrows
    by_cases hnew : page = pages.size
    · rw [if_pos hnew] at hrows
      cases hrows
      exact .inl ⟨hnew, rfl⟩
    · rw [if_neg hnew] at hrows
      exact .inr (hold hrows)
  constructor
  · intro page rows hrows
    rcases hcases hrows with ⟨-, rfl⟩ | hrows
    · exact hne
    · exact h.page_ne_nil hrows
  · intro page slot rows row hrows hrow
    rcases hcases hrows with ⟨rfl, rfl⟩ | hrows
    · exact hlast hrow
    · exact h.recordId_eq hrows hrow

/-- A row that is added remembers its place, and no other row moves. -/
theorem Placed.append (h : t.Placed) (pageRows : Nat) (row : Row) : (t.append pageRows row).Placed := by
  rcases append_cases t pageRows row with ⟨hplace, hpages⟩ | ⟨full, last, ht, hplace, hpages⟩
  · apply h.push hpages id (by simp)
    intro slot r hr
    obtain ⟨hslot, rfl⟩ := Array.getElem?_eq_some_iff.1 hr
    have hzero : slot = 0 := Nat.lt_one_iff.1 hslot
    subst hzero
    rw [← hplace]
    rfl
  · have hlast : t.pages[full.size]? = some last := by simp [ht]
    apply h.push hpages ?_ (by simp)
    · intro slot r hr
      rw [Array.getElem?_push] at hr
      by_cases hslot : slot = last.size
      · rw [if_pos hslot] at hr
        cases hr
        rw [hplace, hslot]
      · rw [if_neg hslot] at hr
        exact h.recordId_eq hlast hr
    · intro page rows hrows
      have hlt : page < full.size := (Array.getElem?_eq_some_iff.1 hrows).1
      rw [ht, Array.getElem?_push, if_neg (Nat.ne_of_lt hlt), hrows]

/-! ## Growth -/

/-- The same rows are the first, too. -/
theorem prefix_of_eq {rows rows' : List Row} (h : rows = rows') : rows <+: rows' :=
  h ▸ List.prefix_refl rows

/-- The table `t'` is `t` later on. -/
structure Grows (t t' : Table) : Prop where
  /-- It keeps its columns. -/
  schema_eq : t'.schema = t.schema
  /-- It keeps its pages. -/
  size_le : t.pages.size ≤ t'.pages.size
  /-- The pages before the last keep their rows. -/
  full : ∀ k < t.pages.size, t'.rowsUpTo k = t.rowsUpTo k
  /-- The last page keeps its rows and may get more. -/
  last : t.rows <+: t'.rowsUpTo t.pages.size

namespace Grows

theorem refl (t : Table) : t.Grows t where
  schema_eq := rfl
  size_le := Nat.le_refl _
  full _ _ := rfl
  last := prefix_of_eq (rowsUpTo_size t).symm

/-- On the pages of a table, the rows that are there stay the first. -/
theorem rowsUpTo_prefix (h : t.Grows t') {k : Nat} (hk : k ≤ t.pages.size) :
    t.rowsUpTo k <+: t'.rowsUpTo k := by
  rcases Nat.lt_or_eq_of_le hk with hlt | rfl
  · exact prefix_of_eq (h.full k hlt).symm
  · rw [rowsUpTo_size]
    exact h.last

/-- The rows that are there keep their numbers. -/
theorem rows_prefix (h : t.Grows t') : t.rows <+: t'.rows :=
  h.last.trans (Table.rowsUpTo_prefix t' _)

theorem trans (h : t.Grows t') (h' : t'.Grows t'') : t.Grows t'' where
  schema_eq := h'.schema_eq.trans h.schema_eq
  size_le := Nat.le_trans h.size_le h'.size_le
  full k hk := (h'.full k (Nat.lt_of_lt_of_le hk h.size_le)).trans (h.full k hk)
  last := h.last.trans (h'.rowsUpTo_prefix h.size_le)

/-- A table grows by a row that is added. -/
theorem append (t : Table) (pageRows : Nat) (row : Row) : t.Grows (t.append pageRows row) := by
  have hschema := PageStore.schema_append t pageRows row
  rcases append_cases t pageRows row with ⟨-, hpages⟩ | ⟨full, page, ht, -, hpages⟩
  · have hfirst : ∀ k ≤ t.pages.size, (t.append pageRows row).rowsUpTo k = t.rowsUpTo k := by
      intro k hk
      unfold rowsUpTo
      rw [hpages, Array.toList_push, List.take_append_of_le_length hk]
    refine ⟨hschema, ?_, fun k hk => hfirst k (Nat.le_of_lt hk), ?_⟩
    · rw [hpages, Array.size_push]
      exact Nat.le_succ _
    · have hall := hfirst t.pages.size (Nat.le_refl _)
      exact prefix_of_eq (hall.trans (rowsUpTo_size t)).symm
  · have hsize : t.pages.size = full.size + 1 := by rw [ht, Array.size_push]
    have hsize' : (t.append pageRows row).pages.size = full.size + 1 := by
      rw [hpages, Array.size_push]
    have hfirst : ∀ k ≤ full.size, (t.append pageRows row).rowsUpTo k = t.rowsUpTo k := by
      intro k hk
      unfold rowsUpTo
      rw [hpages, ht, Array.toList_push, Array.toList_push, List.take_append_of_le_length hk,
        List.take_append_of_le_length hk]
    refine ⟨hschema, ?_, fun k hk => hfirst k (by omega), ?_⟩
    · exact Nat.le_of_eq (hsize.trans hsize'.symm)
    · rw [hsize, ← hsize', rowsUpTo_size, rows_append]
      exact List.prefix_append _ _

end Grows

/-! ## Steps -/

/-- What a step of a store does to one of its tables. -/
inductive Step (pageRows : Nat) (t : Table) : Table → Prop where
  /-- Pages of it are handed out, or none. -/
  | count (reads : Nat) : Step pageRows t { t with reads }
  /-- It gets one row more. -/
  | append (row : Row) : row.schema.Agrees t.schema → Step pageRows t (t.append pageRows row)

theorem Step.placed {pageRows : Nat} (h : Step pageRows t t') (ht : t.Placed) : t'.Placed := by
  cases h with
  | count reads => exact ⟨ht.page_ne_nil, ht.recordId_eq⟩
  | append row _ => exact ht.append pageRows row

theorem Step.grows {pageRows : Nat} (h : Step pageRows t t') : t.Grows t' := by
  cases h with
  | count reads => exact ⟨rfl, Nat.le_refl _, fun _ _ => rfl, (Grows.refl t).last⟩
  | append row _ => exact Grows.append t pageRows row

end Table

namespace PageStore

variable {s s' : PageStore}

/-- Handing out pages changes nothing but the counters. -/
theorem tables_countReads (s : PageStore) (reads : List TableId) (i : Nat) :
    ((s.countReads reads).tables[i]? = none ∧ s.tables[i]? = none) ∨
      ∃ t n, s.tables[i]? = some t ∧ (s.countReads reads).tables[i]? = some { t with reads := n } := by
  induction reads generalizing s with
  | nil =>
    show (s.tables[i]? = none ∧ s.tables[i]? = none) ∨
      ∃ t n, s.tables[i]? = some t ∧ s.tables[i]? = some { t with reads := n }
    cases hi : s.tables[i]? with
    | none => exact .inl ⟨rfl, rfl⟩
    | some t => exact .inr ⟨t, t.reads, rfl, rfl⟩
  | cons table reads ih =>
    rw [countReads_cons]
    have hrest := ih { s with
      tables := s.tables.modify table.number fun t => { t with reads := t.reads + 1 } }
    rw [show ({ s with tables := s.tables.modify table.number fun t =>
      { t with reads := t.reads + 1 } } : PageStore).tables = s.tables.modify table.number
        fun t => { t with reads := t.reads + 1 } from rfl, Array.getElem?_modify] at hrest
    by_cases hi : table.number = i
    · rw [if_pos hi] at hrest
      rcases hrest with ⟨hnone, hnone'⟩ | ⟨t, n, ht, ht'⟩
      · exact .inl ⟨hnone, by simpa using hnone'⟩
      · obtain ⟨t, hfound, rfl⟩ := Option.map_eq_some_iff.1 ht
        exact .inr ⟨t, n, hfound, ht'⟩
    · rw [if_neg hi] at hrest
      exact hrest

/-- A step of a store is a step of each of its tables; a table that it adds has no pages. -/
theorem Step.tables (h : Step s s') (i : Nat) :
    (∃ t t', s.tables[i]? = some t ∧ s'.tables[i]? = some t' ∧ t.Step s.pageRows t') ∨
      (s.tables[i]? = none ∧ ∀ t', s'.tables[i]? = some t' → t'.pages = #[]) := by
  -- a step that leaves the table alone
  have hsame : s'.tables[i]? = s.tables[i]? →
      (∃ t t', s.tables[i]? = some t ∧ s'.tables[i]? = some t' ∧ t.Step s.pageRows t') ∨
        (s.tables[i]? = none ∧ ∀ t', s'.tables[i]? = some t' → t'.pages = #[]) := by
    intro heq
    rw [heq]
    cases hi : s.tables[i]? with
    | none => exact .inr ⟨rfl, nofun⟩
    | some t => exact .inl ⟨t, t, rfl, rfl, .count t.reads⟩
  cases h with
  | createTable name schema =>
    have hpush : (s.createTable name schema).2.tables[i]? =
        if i = s.tables.size then some { name, schema } else s.tables[i]? := Array.getElem?_push
    by_cases hnew : i = s.tables.size
    · rw [if_pos hnew] at hpush
      refine .inr ⟨by simp [hnew], fun t' ht' => ?_⟩
      rw [hpush] at ht'
      cases ht'
      rfl
    · rw [if_neg hnew] at hpush
      exact hsame hpush
  | @insert _ table row place hinsert =>
    obtain ⟨t, ht, hagrees, rfl⟩ := of_insert hinsert
    have hmodify : (s.tables.modify table.number fun t => t.append s.pageRows row)[i]? =
        if table.number = i then (s.tables[i]?).map fun t => t.append s.pageRows row
        else s.tables[i]? := Array.getElem?_modify
    by_cases hi : table.number = i
    · rw [if_pos hi] at hmodify
      rw [table_eq_ok_iff, hi] at ht
      rw [ht] at hmodify
      exact .inl ⟨t, _, ht, hmodify, .append row hagrees⟩
    · rw [if_neg hi] at hmodify
      exact hsame hmodify
  | failPage table page => exact hsame rfl
  | clearFaults => exact hsame rfl
  | countReads reads =>
    rcases tables_countReads s reads i with ⟨hnone, hnone'⟩ | ⟨t, n, ht, ht'⟩
    · exact hsame (hnone.trans hnone'.symm)
    · exact .inl ⟨t, _, ht, ht', .count n⟩

/-- In every store that can come about, rows remember their places. -/
theorem placed_of_reached (h : Reached s) {table : TableId} {t : Table}
    (ht : s.table table = .ok t) : t.Placed := by
  rw [table_eq_ok_iff] at ht
  induction h generalizing t with
  | empty pageRows => simp [empty] at ht
  | step _ hstep ih =>
    rcases hstep.tables table.number with ⟨t₀, t', ht₀, ht', hchange⟩ | ⟨-, hnew⟩
    · rw [ht'] at ht
      cases ht
      exact hchange.placed (ih ht₀)
    · exact Table.placed_of_no_pages (hnew t ht)

/-- A table that is there is still there after a step, and has grown. -/
theorem Step.grows (h : Step s s') {table : TableId} {t : Table} (ht : s.table table = .ok t) :
    ∃ t', s'.table table = .ok t' ∧ t.Grows t' := by
  rw [table_eq_ok_iff] at ht
  rcases h.tables table.number with ⟨t₀, t', ht₀, ht', hchange⟩ | ⟨hnone, -⟩
  · rw [ht₀] at ht
    cases ht
    exact ⟨t', table_eq_ok_iff.2 ht', hchange.grows⟩
  · rw [hnone] at ht
    cases ht

/-- What comes later can come about, too. -/
theorem Reached.later (h : Reached s) (hlater : Relation.ReflTransGen Step s s') : Reached s' := by
  induction hlater with
  | refl => exact h
  | tail _ hstep ih => exact ih.step hstep

/-- A table that is there is still there later, and has grown. -/
theorem grows_of_later (hlater : Relation.ReflTransGen Step s s') {table : TableId} {t : Table}
    (ht : s.table table = .ok t) : ∃ t', s'.table table = .ok t' ∧ t.Grows t' := by
  induction hlater with
  | refl => exact ⟨t, ht, .refl t⟩
  | tail _ hstep ih =>
    obtain ⟨t₁, ht₁, hgrows⟩ := ih
    obtain ⟨t₂, ht₂, hgrows'⟩ := hstep.grows ht₁
    exact ⟨t₂, ht₂, hgrows.trans hgrows'⟩

end PageStore

end RowStream
