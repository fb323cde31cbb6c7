import RowStream.Proofs.Store.Paged
import RowStream.Proofs.Store.Shared
import RowStream.Word

/-!
# `RowStream.Proofs.Store.History` — what any calls leave in a store

Calls that fill a store, one after the other, of which some fail, leave in every table the rows that it
took, in the order in which it took them, each at the place that was answered, and nothing else. So the
number of a row among those of its table decides its page and its slot, now and at every later time.

All this needs that there can be memory for a page. If pages are to have more rows than that, the first
row that fits its table breaks off the call that brings it and poisons the lock of the store, and from
then on nothing can be asked of any table.

## Contents
- `Action`, `Inserted`, `Log`, `log` — calls, and the rows that they leave taken.
- `Log.next_cases` — what a call can do.
- `Log.Kept`, `Kept.next`, `kept_log` — the tables hold the rows that were taken, call by call.
- `Log.reached_next`, `reached_log` — what the lock guards is a store that can come about.
- `Kept.place_eq`, `Kept.nodup_places`, `Kept.fetchPage` — where the rows are, and that they stay there.
- `Declines`, `Kept.insert_eq_error_iff`, `Kept.createTable` — which rows are not taken, and the
  first row of a table.
- `insertAll_cases`, `Log.table_next_insertAll` — rows that are added one by one, and the other tables.
- `Filled`, `Willing`, `filled_log`, `willing_of_fits` — what the tables hold after any calls, and which
  rows are taken then.
- `log_paged`, `log_breaks_off_at_top` — all of this, and what becomes of pages for more rows than there
  can be memory for.
-/

namespace RowStream.SharedStore

variable {s s' : SharedStore} {table other : TableId} {row : Row} {rows : List Row} {t : Table}
  {place : RecordId} {f : StoreFailure} {contents : PageStore}

/-! ## Calls -/

/-- A call on a store. -/
inductive Action where
  /-- Adds a table. -/
  | createTable (name : String) (schema : Schema)
  /-- Adds a row. -/
  | insert (table : TableId) (row : Row)
  /-- Adds rows one by one. -/
  | insertAll (table : TableId) (rows : List Row)
  /-- Makes a page unreadable. -/
  | failPage (table : TableId) (page : Nat)
  /-- Makes every page readable again. -/
  | clearFaults
  /-- Reads a page. -/
  | fetchPage (table : TableId) (page : Nat)
  deriving DecidableEq, Repr

/-- What the call does to the store. -/
def Action.perform : Action → StoreAccess Unit
  | createTable name schema => discard (SharedStore.createTable name schema)
  | insert table row => discard (SharedStore.insert table row)
  | insertAll table rows => SharedStore.insertAll table rows
  | failPage table page => SharedStore.failPage table page
  | clearFaults => SharedStore.clearFaults
  | fetchPage table page => discard (SharedStore.fetchPage table page)

/-- The store that an access leaves behind, whether it fails or not. -/
def after {α : Type} (s : SharedStore) (access : StoreAccess α) : SharedStore :=
  match access.run s with
  | .ok _ s => s
  | .error _ s => s

/-- A row that was put into a table. -/
structure Inserted where
  /-- The table. -/
  table : TableId
  /-- The place that was answered. -/
  place : RecordId
  /-- The row as it was given. -/
  row : Row
  deriving DecidableEq, Repr

/-- The row as the store has it. -/
def Inserted.stored (i : Inserted) : Row := { i.row with recordId := some i.place }

/-- The rows that are put into a table when rows are added one by one. -/
def inserts (s : SharedStore) (table : TableId) : List Row → List Inserted
  | [] => []
  | row :: rows =>
    match (insert table row).run s with
    | .ok place s => ⟨table, place, row⟩ :: s.inserts table rows
    | .error _ _ => []

/-- The rows that a call puts into a table. -/
def taken (s : SharedStore) : Action → List Inserted
  | .insert table row => s.inserts table [row]
  | .insertAll table rows => s.inserts table rows
  | _ => []

/-- A store, and the rows that were put into it. -/
structure Log where
  /-- The store. -/
  store : SharedStore
  /-- The rows of all tables, in the order in which they were put there. -/
  inserted : List Inserted := []
  deriving DecidableEq, Repr

namespace Log

/-- The rows that were put into one table. -/
def of (log : Log) (table : TableId) : List Inserted := log.inserted.filter (·.table = table)

/-- One more call. -/
def next (log : Log) (action : Action) : Log :=
  ⟨log.store.after action.perform, log.inserted ++ log.store.taken action⟩

end Log

/-- Calls on a new store, one after the other. -/
def log (pageRows : Nat) (actions : List Action) : Log :=
  actions.foldl Log.next ⟨empty pageRows, []⟩

theorem log_concat (pageRows : Nat) (actions : List Action) (action : Action) :
    log pageRows (actions ++ [action]) = (log pageRows actions).next action := List.foldl_concat ..

theorem after_of_ok {α : Type} {access : StoreAccess α} {a : α} (h : access.run s = .ok a s') :
    s.after access = s' := by
  unfold after
  rw [h]

theorem after_of_error {α : Type} {access : StoreAccess α} (h : access.run s = .error f s') :
    s.after access = s' := by
  unfold after
  rw [h]

theorem after_discard {α : Type} (s : SharedStore) (access : StoreAccess α) :
    s.after (discard access) = s.after access := by
  unfold after
  rw [show (discard access : StoreAccess Unit) = access >>= fun _ => pure () from rfl,
    EStateM.run_bind]
  cases access.run s <;> rfl

namespace Log

variable {l : Log}

theorem next_insertAll_nil (l : Log) (table : TableId) : l.next (.insertAll table []) = l := by
  show (⟨l.store, l.inserted ++ []⟩ : Log) = l
  rw [List.append_nil]

/-- Rows are added one by one. -/
theorem next_insertAll_of_ok (h : (SharedStore.insert table row).run l.store = .ok place s)
    (rows : List Row) : l.next (.insertAll table (row :: rows)) =
      next ⟨s, l.inserted ++ [⟨table, place, row⟩]⟩ (.insertAll table rows) := by
  have hrun := insertAll_cons_run l.store table row rows
  rw [h] at hrun
  simp only [next, Action.perform, after, hrun, taken, inserts, h, List.append_assoc,
    List.singleton_append]

/-- A row that is not taken ends that. -/
theorem next_insertAll_of_error (h : (SharedStore.insert table row).run l.store = .error f s)
    (rows : List Row) : l.next (.insertAll table (row :: rows)) = { l with store := s } := by
  have hrun := insertAll_cons_run l.store table row rows
  rw [h] at hrun
  simp only [next, Action.perform, after, hrun, taken, inserts, h, List.append_nil]

/-- One row is added as a list of one row is. -/
theorem next_insert (l : Log) (table : TableId) (row : Row) :
    l.next (.insert table row) = l.next (.insertAll table [row]) := by
  have hrun := insertAll_cons_run l.store table row []
  simp only [next, Action.perform, taken, after_discard]
  unfold after
  rw [hrun]
  cases (SharedStore.insert table row).run l.store <;> rfl

end Log

/-! ## The tables hold the rows that were taken -/

/-- A table holds these rows, each at the place that was answered. -/
structure Holds (pageRows : Nat) (t : Table) (inserted : List Inserted) : Prop where
  /-- The rows lie one behind the other. -/
  paged : t.Paged pageRows
  /-- The rows are these. -/
  rows_eq : t.rows = inserted.map Inserted.stored
  /-- The number of a row decides its place. -/
  place_eq : ∀ {n : Nat} {i : Inserted}, inserted[n]? = some i → i.place = .ofNumber pageRows n

namespace Holds

variable {pageRows : Nat} {inserted : List Inserted}

/-- A table without pages holds nothing. -/
theorem of_no_pages (hpos : 0 < pageRows) (h : t.pages = #[]) : Holds pageRows t [] where
  paged := .of_no_pages hpos h
  rows_eq := by
    unfold Table.rows
    rw [h]
    rfl
  place_eq := nofun

/-- The first row of a table begins a page. -/
theorem beginsPage (h : Holds pageRows t []) : t.beginsPage pageRows = true := by
  rw [Table.beginsPage_iff]
  intro page hback
  -- a page would have a row, of which there is none
  obtain ⟨full, hpages⟩ := Array.back?_eq_some_iff.1 hback
  have hpage : t.pages[full.size]? = some page := by simp [hpages]
  have hsize := (h.paged.page_filled hpage).1
  have hrows := h.rows_eq
  simp only [Table.rows, hpages, Array.toList_push, List.flatMap_append, List.flatMap_singleton,
    List.map_nil, List.append_eq_nil_iff] at hrows
  rw [← Array.length_toList, hrows.2] at hsize
  cases hsize

/-- Only the pages play a part. -/
theorem of_pages_eq (h : Holds pageRows t inserted) {t' : Table} (hpages : t'.pages = t.pages) :
    Holds pageRows t' inserted where
  paged := h.paged.of_pages_eq hpages
  rows_eq := by
    rw [← h.rows_eq]
    unfold Table.rows
    rw [hpages]
  place_eq := h.place_eq

/-- One more row, at the next place. -/
theorem append (h : Holds pageRows t inserted) (table : TableId) (row : Row) :
    Holds pageRows (t.append pageRows row)
      (inserted ++ [⟨table, t.nextPlace pageRows, row⟩]) where
  paged := h.paged.append row
  rows_eq := by
    rw [Table.rows_append, h.rows_eq, List.map_append]
    rfl
  place_eq := by
    intro n i hi
    rcases Nat.lt_or_ge n inserted.length with hn | hn
    · rw [List.getElem?_append_left hn] at hi
      exact h.place_eq hi
    · -- the row that was added
      have hnew : n = inserted.length ∧ i = ⟨table, t.nextPlace pageRows, row⟩ := by
        rw [List.getElem?_append_right hn] at hi
        obtain ⟨hlt, hget⟩ := List.getElem?_eq_some_iff.1 hi
        rw [List.length_singleton] at hlt
        exact ⟨by omega, by simpa using hget.symm⟩
      obtain ⟨rfl, rfl⟩ := hnew
      rw [h.paged.nextPlace, h.rows_eq, List.length_map]

end Holds

namespace Log

/-- Every table holds the rows that were put into it. -/
structure Kept (pageRows : Nat) (log : Log) : Prop where
  /-- The pages keep their size. -/
  pageRows_eq : log.store.contents.pageRows = pageRows
  /-- What a table holds. -/
  holds : ∀ {table : TableId} {t : Table}, log.store.contents.tables[table.number]? = some t →
    Holds pageRows t (log.of table)
  /-- Nothing was put into a table that is not there. -/
  absent : ∀ {table : TableId}, log.store.contents.tables[table.number]? = none → log.of table = []
  /-- Where rows were taken, there can be memory for a page. -/
  fits : log.inserted ≠ [] → pageRows ≤ PageStore.maxPageRows
  /-- Where there can be memory for a page, no call broke off. -/
  whole : pageRows ≤ PageStore.maxPageRows → log.store.poisoned = false

variable {l : Log} {pageRows : Nat}

theorem of_append (s : SharedStore) (inserted : List Inserted) (i : Inserted) (table : TableId) :
    of ⟨s, inserted ++ [i]⟩ table =
      if i.table = table then of ⟨s, inserted⟩ table ++ [i] else of ⟨s, inserted⟩ table := by
  unfold of
  rw [List.filter_append]
  by_cases h : i.table = table <;> simp [h]

/-- Changes that leave all rows where they are, and tables that are added without any. -/
theorem Kept.congr (h : l.Kept pageRows) (hpos : 0 < pageRows)
    (hpageRows : contents.pageRows = l.store.contents.pageRows)
    (htables : ∀ i : Nat, (contents.tables[i]? = none ∧ l.store.contents.tables[i]? = none) ∨
      ∃ t : Table, contents.tables[i]? = some t ∧
        ((∃ t₀ : Table, l.store.contents.tables[i]? = some t₀ ∧ t.pages = t₀.pages) ∨
          (l.store.contents.tables[i]? = none ∧ t.pages = #[]))) :
    Kept pageRows { l with store := { l.store with contents } } where
  pageRows_eq := hpageRows.trans h.pageRows_eq
  holds := by
    intro table t ht
    rcases htables table.number with ⟨hnone, -⟩ | ⟨t', ht', hcases⟩
    · rw [hnone] at ht
      cases ht
    · rw [ht'] at ht
      cases ht
      rcases hcases with ⟨t₀, ht₀, hpages⟩ | ⟨hnone, hpages⟩
      · exact (h.holds ht₀).of_pages_eq hpages
      · show Holds pageRows t (l.of table)
        rw [h.absent hnone]
        exact .of_no_pages hpos hpages
  absent := by
    intro table hnone
    rcases htables table.number with ⟨-, hold⟩ | ⟨t, ht, -⟩
    · exact h.absent hold
    · rw [ht] at hnone
      cases hnone
  fits := h.fits
  whole := h.whole

/-- Where pages are too large, every table is without rows. -/
theorem Kept.beginsPage (h : l.Kept pageRows) (hlarge : PageStore.maxPageRows < pageRows)
    (ht : l.store.contents.table table = .ok t) : t.beginsPage pageRows = true := by
  have hnone : l.inserted = [] :=
    Classical.byContradiction fun hsome => Nat.not_lt.2 (h.fits hsome) hlarge
  have hholds := h.holds (PageStore.table_eq_ok_iff.1 ht)
  rw [show l.of table = [] by rw [of, hnone]; rfl] at hholds
  exact hholds.beginsPage

/-- There is memory for every page of a table that takes a row. -/
theorem Kept.fits_of_insert (h : l.Kept pageRows)
    (hinsert : l.store.contents.insert table row = .ok (place, contents)) :
    pageRows ≤ PageStore.maxPageRows := by
  obtain ⟨t, ht, -, hfits, -, -⟩ := PageStore.insert_eq_ok_iff.1 hinsert
  by_contra hlarge
  rw [Nat.not_le] at hlarge
  refine hfits ⟨?_, ?_⟩
  · rw [h.pageRows_eq]
    exact h.beginsPage hlarge ht
  · rw [h.pageRows_eq]
    exact hlarge

/-- One more row. -/
theorem Kept.insert (h : l.Kept pageRows)
    (hinsert : l.store.contents.insert table row = .ok (place, contents)) :
    Kept pageRows ⟨{ l.store with contents }, l.inserted ++ [⟨table, place, row⟩]⟩ := by
  have hfits := h.fits_of_insert hinsert
  obtain ⟨t, ht, -, -, rfl, rfl⟩ := PageStore.insert_eq_ok_iff.1 hinsert
  rw [PageStore.table_eq_ok_iff] at ht
  have hpageRows := h.pageRows_eq
  have hmodify : ∀ i : Nat, (l.store.contents.tables.modify table.number fun t =>
      t.append l.store.contents.pageRows row)[i]? = if table.number = i
        then (l.store.contents.tables[i]?).map fun t => t.append l.store.contents.pageRows row
        else l.store.contents.tables[i]? := fun i => Array.getElem?_modify
  refine ⟨hpageRows, ?_, ?_, fun _ => hfits, h.whole⟩
  · intro other t' ht'
    rw [of_append]
    rw [show _ = _ from hmodify other.number] at ht'
    by_cases hother : table = other
    · subst hother
      rw [if_pos rfl, ht, hpageRows] at ht'
      cases ht'
      rw [if_pos rfl, hpageRows]
      exact (h.holds ht).append table row
    · rw [if_neg fun hnumber => hother (congrArg TableId.mk hnumber)] at ht'
      rw [if_neg hother]
      exact h.holds ht'
  · intro other hnone
    rw [show _ = _ from hmodify other.number] at hnone
    by_cases hother : table = other
    · subst hother
      rw [if_pos rfl, ht] at hnone
      cases hnone
    · rw [if_neg fun hnumber => hother (congrArg TableId.mk hnumber)] at hnone
      rw [of_append, if_neg hother]
      exact h.absent hnone

/-- A call that breaks off poisons the lock, and nothing else. -/
theorem Kept.failed (h : l.Kept pageRows) (hinsert : l.store.contents.insert table row = .error f) :
    Kept pageRows { l with store := { l.store with poisoned := l.store.poisoned || f.breaksOff } } := by
  refine ⟨h.pageRows_eq, h.holds, h.absent, h.fits, ?_⟩
  intro hfits
  show (l.store.poisoned || f.breaksOff) = false
  rw [h.whole hfits, Bool.false_or]
  obtain ⟨-, rfl⟩ | ⟨t, -, ⟨-, rfl⟩ | ⟨-, hcramped, -⟩⟩ := PageStore.insert_eq_error_iff.1 hinsert
  · rfl
  · rfl
  · have hlarge := hcramped.2
    rw [h.pageRows_eq] at hlarge
    exact absurd hlarge (Nat.not_lt.2 hfits)

/-- Rows that are added one by one. -/
theorem Kept.insertAll (h : l.Kept pageRows) (table : TableId) (rows : List Row) :
    Kept pageRows (l.next (.insertAll table rows)) := by
  induction rows generalizing l with
  | nil =>
    rw [next_insertAll_nil]
    exact h
  | cons row rows ih =>
    obtain ⟨place, contents, -, hinsert, hrun⟩ | ⟨f, hrun, hcause⟩ := insert_cases l.store table row
    · rw [next_insertAll_of_ok hrun]
      exact ih (h.insert hinsert)
    · rw [next_insertAll_of_error hrun]
      rcases hcause with ⟨hpoisoned, rfl⟩ | ⟨-, hinsert⟩
      · have hsame : ({ l.store with poisoned := l.store.poisoned ||
            (StoreFailure.refused .lockPoisoned).breaksOff } : SharedStore) = l.store := by
          rw [show (StoreFailure.refused .lockPoisoned).breaksOff = false from rfl, Bool.or_false]
        rw [hsame]
        exact h
      · exact h.failed hinsert

/-- Behind a poisoned lock, calls change nothing. -/
theorem next_of_poisoned (h : l.store.poisoned = true) (action : Action) : l.next action = l := by
  have hinsertAll : ∀ table rows, l.next (.insertAll table rows) = l := by
    intro table rows
    cases rows with
    | nil => exact next_insertAll_nil l table
    | cons row rows => rw [next_insertAll_of_error (run_of_poisoned h _)]
  -- an access that begins with taking the lock, and takes no rows
  have hlocked : ∀ {α : Type} (k : PageStore → StoreAccess α),
      (⟨l.store.after (locked >>= k), l.inserted ++ []⟩ : Log) = l := by
    intro α k
    rw [after_of_error (run_of_poisoned h k), List.append_nil]
  cases action with
  | createTable name schema =>
    simp only [next, Action.perform, taken, after_discard]
    exact hlocked _
  | insert table row =>
    rw [next_insert]
    exact hinsertAll table [row]
  | insertAll table rows => exact hinsertAll table rows
  | failPage table page => exact hlocked fun _ => modifyContents (·.failPage table page)
  | clearFaults => exact hlocked fun _ => modifyContents PageStore.clearFaults
  | fetchPage table page =>
    simp only [next, Action.perform, taken, after_discard]
    exact hlocked _

/-- What a call behind a whole lock can do: it adds rows, or a table, or changes faults only, or counts a
page that was read, or does nothing. -/
theorem next_cases (h : l.store.poisoned = false) (action : Action) :
    (∃ table rows, l.next action = l.next (.insertAll table rows)) ∨
    (∃ name schema, l.next action = { l with store := { l.store with
      contents := (l.store.contents.createTable name schema).2 } }) ∨
    (∃ contents, l.store.contents.Step contents ∧ contents.pageRows = l.store.contents.pageRows ∧
      contents.tables = l.store.contents.tables ∧
      l.next action = { l with store := { l.store with contents } }) ∨
    (∃ table, l.next action = { l with store := { l.store with
      contents := l.store.contents.countReads [table] } }) ∨
    l.next action = l := by
  cases action with
  | createTable name schema =>
    refine .inr (.inl ⟨name, schema, ?_⟩)
    show (⟨l.store.after (discard (SharedStore.createTable name schema)), l.inserted ++ []⟩ : Log) = _
    rw [after_discard, after_of_ok (createTable_run h name schema), List.append_nil]
  | insert table row => exact .inl ⟨table, [row], next_insert l table row⟩
  | insertAll table rows => exact .inl ⟨table, rows, rfl⟩
  | failPage table page =>
    refine .inr (.inr (.inl ⟨_, .failPage _ table page, rfl, rfl, ?_⟩))
    show (⟨l.store.after (SharedStore.failPage table page), l.inserted ++ []⟩ : Log) = _
    rw [after_of_ok (failPage_run h table page), List.append_nil]
  | clearFaults =>
    refine .inr (.inr (.inl ⟨_, .clearFaults _, rfl, rfl, ?_⟩))
    show (⟨l.store.after SharedStore.clearFaults, l.inserted ++ []⟩ : Log) = _
    rw [after_of_ok (clearFaults_run h), List.append_nil]
  | fetchPage table page =>
    have hrun := fetchPage_run h table page
    rw [PageStore.fetchPage] at hrun
    have hnext : l.next (.fetchPage table page) =
        ⟨l.store.after (SharedStore.fetchPage table page), l.inserted⟩ := by
      show (⟨l.store.after (discard (SharedStore.fetchPage table page)), l.inserted ++ []⟩ : Log) = _
      rw [after_discard, List.append_nil]
    rw [hnext]
    cases hread : l.store.contents.readPage table page with
    | error e =>
      rw [hread] at hrun
      rw [after_of_error hrun]
      exact .inr (.inr (.inr (.inr rfl)))
    | ok rows =>
      rw [hread] at hrun
      rw [after_of_ok hrun]
      exact .inr (.inr (.inr (.inl ⟨table, rfl⟩)))

/-- One more call. -/
theorem Kept.next (h : l.Kept pageRows) (hpos : 0 < pageRows) (action : Action) :
    Kept pageRows (l.next action) := by
  cases hlock : l.store.poisoned with
  | true =>
    rw [next_of_poisoned hlock]
    exact h
  | false =>
    obtain ⟨table, rows, hnext⟩ | ⟨name, schema, hnext⟩ | ⟨contents, -, hpageRows, htables, hnext⟩ |
      ⟨table, hnext⟩ | hnext := next_cases hlock action
    · rw [hnext]
      exact h.insertAll table rows
    · rw [hnext]
      refine h.congr hpos rfl fun i => ?_
      have hpush : (l.store.contents.createTable name schema).2.tables[i]? =
          if i = l.store.contents.tables.size then some { name, schema }
          else l.store.contents.tables[i]? := Array.getElem?_push
      rw [hpush]
      by_cases hnew : i = l.store.contents.tables.size
      · rw [if_pos hnew]
        exact .inr ⟨_, rfl, .inr ⟨by simp [hnew], rfl⟩⟩
      · rw [if_neg hnew]
        cases hi : l.store.contents.tables[i]? with
        | none => exact .inl ⟨rfl, rfl⟩
        | some t => exact .inr ⟨t, rfl, .inl ⟨t, rfl, rfl⟩⟩
    · rw [hnext]
      refine h.congr hpos hpageRows fun i => ?_
      rw [htables]
      cases hi : l.store.contents.tables[i]? with
      | none => exact .inl ⟨rfl, rfl⟩
      | some t => exact .inr ⟨t, rfl, .inl ⟨t, rfl, rfl⟩⟩
    · rw [hnext]
      refine h.congr hpos rfl fun i => ?_
      obtain hnone | ⟨t, n, ht, ht'⟩ := PageStore.tables_countReads l.store.contents [table] i
      · exact .inl hnone
      · exact .inr ⟨_, ht', .inl ⟨t, ht, rfl⟩⟩
    · rw [hnext]
      exact h

/-- What the lock guards stays a store that can come about. -/
theorem reached_next (h : l.store.contents.Reached) (action : Action) :
    (l.next action).store.contents.Reached := by
  cases hlock : l.store.poisoned with
  | true =>
    rw [next_of_poisoned hlock]
    exact h
  | false =>
    obtain ⟨table, rows, hnext⟩ | ⟨name, schema, hnext⟩ | ⟨contents, hstep, -, -, hnext⟩ |
      ⟨table, hnext⟩ | hnext := next_cases hlock action
    · -- rows are added as the store adds them
      have hall := h.insertAll table rows
      have hrun := insertAll_run hlock table rows
      rw [hnext]
      show (l.store.after (SharedStore.insertAll table rows)).contents.Reached
      cases hadded : l.store.contents.insertAll table rows with
      | mk result contents =>
        rw [hadded] at hall hrun
        cases result with
        | ok u =>
          rw [after_of_ok hrun]
          exact hall
        | error f =>
          rw [after_of_error hrun]
          exact hall
    · rw [hnext]
      exact h.step (.createTable _ name schema)
    · rw [hnext]
      exact h.step hstep
    · rw [hnext]
      exact h.step (.countReads _ [table])
    · rw [hnext]
      exact h

end Log

/-- After any calls, every table holds the rows that were put into it. -/
theorem kept_log (pageRows : Nat) (actions : List Action) :
    (log pageRows actions).Kept (max pageRows 1) := by
  induction actions using List.reverseRecOn with
  | nil =>
    refine ⟨rfl, ?_, fun _ => rfl, fun hsome => absurd rfl hsome, fun _ => rfl⟩
    intro table t ht
    simp [log, empty, PageStore.empty] at ht
  | append_singleton actions action ih =>
    rw [log_concat]
    exact ih.next (Nat.le_max_right _ _) action

/-- What the lock guards after any calls is a store that can come about: what is true of the operators
over such stores is true of them over it. -/
theorem reached_log (pageRows : Nat) (actions : List Action) :
    (log pageRows actions).store.contents.Reached := by
  induction actions using List.reverseRecOn with
  | nil => exact .empty pageRows
  | append_singleton actions action ih =>
    rw [log_concat]
    exact Log.reached_next ih action

/-! ## Where the rows are, and that they stay there -/

namespace Log

variable {l : Log} {pageRows : Nat}

/-- A table that took rows is there and holds them. -/
theorem Kept.exists_table (h : l.Kept pageRows) {i : Inserted} (hi : i ∈ l.of table) :
    ∃ t, l.store.contents.tables[table.number]? = some t ∧ Holds pageRows t (l.of table) := by
  cases ht : l.store.contents.tables[table.number]? with
  | none =>
    rw [h.absent ht] at hi
    cases hi
  | some t => exact ⟨t, rfl, h.holds ht⟩

/-- The number of a row among those of its table decides its place. -/
theorem Kept.place_eq (h : l.Kept pageRows) {n : Nat} {i : Inserted} (hi : (l.of table)[n]? = some i) :
    i.place = .ofNumber pageRows n := by
  obtain ⟨t, -, hholds⟩ := h.exists_table (List.mem_of_getElem? hi)
  exact hholds.place_eq hi

/-- No two rows of a table have the same place. -/
theorem Kept.nodup_places (h : l.Kept pageRows) (table : TableId) :
    ((l.of table).map Inserted.place).Nodup := by
  have hplaces : (l.of table).map Inserted.place =
      (List.range (l.of table).length).map (RecordId.ofNumber pageRows) := by
    apply List.ext_getElem (by simp)
    intro n hn _
    rw [List.length_map] at hn
    rw [List.getElem_map, List.getElem_map, List.getElem_range]
    exact h.place_eq (List.getElem?_eq_getElem hn)
  rw [hplaces]
  exact List.nodup_range.map (RecordId.ofNumber_injective pageRows)

/-- A row that was put into a table is read from its place, unless the page is faulty. -/
theorem Kept.fetchPage (h : l.Kept pageRows) {i : Inserted} (hi : i ∈ l.inserted)
    (hfault : (i.table, i.place.page) ∉ l.store.contents.faults) :
    ∃ page s', (SharedStore.fetchPage i.table i.place.page).run l.store = .ok page s' ∧
      page[i.place.slot]? = some i.stored := by
  have hmem : i ∈ l.of i.table := List.mem_filter.2 ⟨hi, decide_eq_true rfl⟩
  obtain ⟨t, ht, hholds⟩ := h.exists_table hmem
  obtain ⟨n, hn⟩ := List.mem_iff_getElem?.1 hmem
  -- its number leads to its page and its slot
  have hrow : t.rows[n]? = some i.stored := by
    rw [hholds.rows_eq, List.getElem?_map, hn]
    rfl
  obtain ⟨page, hpage, hslot⟩ := hholds.paged.getElem?_page hrow
  have hplace := hholds.place_eq hn
  obtain ⟨hsize, rfl⟩ := Array.getElem?_eq_some_iff.1 hpage
  -- there are rows, so that no call broke off
  have hlock := h.whole (h.fits (List.ne_nil_of_mem hi))
  rw [hplace] at hfault ⊢
  have hread := PageStore.readPage_of_no_fault hfault (PageStore.table_eq_ok_iff.2 ht) hsize
  have hrun := fetchPage_run hlock i.table (RecordId.ofNumber pageRows n).page
  rw [PageStore.fetchPage, hread] at hrun
  exact ⟨_, _, hrun, hslot⟩

/-- No call forgets a row. -/
theorem inserted_prefix (l : Log) (action : Action) : l.inserted <+: (l.next action).inserted :=
  List.prefix_append _ _

end Log

/-- A row that was put into a table was so at every later time. -/
theorem inserted_later (pageRows : Nat) (actions later : List Action) :
    (log pageRows actions).inserted <+: (log pageRows (actions ++ later)).inserted := by
  induction later using List.reverseRecOn with
  | nil =>
    rw [List.append_nil]
  | append_singleton later action ih =>
    rw [← List.append_assoc, log_concat]
    exact ih.trans (Log.inserted_prefix _ action)

/-! ## Which rows are not taken -/

/-- Why a row is not taken by a store whose pages have room for this many rows. -/
inductive Declines (s : SharedStore) (pageRows : Nat) (table : TableId) (row : Row) :
    StoreFailure → Prop where
  /-- A call broke off before. -/
  | poisoned : s.poisoned = true → Declines s pageRows table row (.refused .lockPoisoned)
  /-- There is no such table. -/
  | unknown : s.poisoned = false → s.contents.tables[table.number]? = none →
    Declines s pageRows table row (.refused (.unknownTable table))
  /-- The table has other columns. -/
  | mismatch {t : Table} : s.poisoned = false → s.contents.table table = .ok t →
    ¬ row.schema.Agrees t.schema →
    Declines s pageRows table row (.refused (.mismatch row.schema t.name t.schema))
  /-- There cannot be memory for a page. -/
  | tooLarge {t : Table} : s.poisoned = false → s.contents.table table = .ok t →
    row.schema.Agrees t.schema → PageStore.maxPageRows < pageRows →
    Declines s pageRows table row (.pageTooLarge pageRows)

namespace Log

variable {l : Log} {pageRows : Nat}

/-- Behind a whole lock, these are the reasons of the store. -/
theorem Kept.declines_iff (h : l.Kept pageRows) :
    Declines l.store pageRows table row f ↔
      (l.store.poisoned = true ∧ f = .refused .lockPoisoned) ∨
        (l.store.poisoned = false ∧ l.store.contents.insert table row = .error f) := by
  rw [PageStore.insert_eq_error_iff]
  constructor
  · intro hdeclines
    cases hdeclines with
    | poisoned hlock => exact .inl ⟨hlock, rfl⟩
    | unknown hlock hnone => exact .inr ⟨hlock, .inl ⟨hnone, rfl⟩⟩
    | mismatch hlock ht hother => exact .inr ⟨hlock, .inr ⟨_, ht, .inl ⟨hother, rfl⟩⟩⟩
    | @tooLarge t hlock ht hagrees hlarge =>
      have hcramped : l.store.contents.Cramped t := by
        unfold PageStore.Cramped
        rw [h.pageRows_eq]
        exact ⟨h.beginsPage hlarge ht, hlarge⟩
      exact .inr ⟨hlock, .inr ⟨_, ht, .inr ⟨hagrees, hcramped, by rw [h.pageRows_eq]⟩⟩⟩
  · rintro (⟨hlock, rfl⟩ | ⟨hlock, ⟨hnone, rfl⟩ | ⟨t, ht, ⟨hother, rfl⟩ | ⟨hagrees, hcramped, rfl⟩⟩⟩)
    · exact .poisoned hlock
    · exact .unknown hlock hnone
    · exact .mismatch hlock ht hother
    · have hlarge := hcramped.2
      rw [h.pageRows_eq] at hlarge ⊢
      exact .tooLarge hlock ht hagrees hlarge

/-- A row is not taken for these reasons only, and the tables are as they were. -/
theorem Kept.insert_eq_error_iff (h : l.Kept pageRows) :
    (SharedStore.insert table row).run l.store = .error f s ↔
      Declines l.store pageRows table row f ∧
        s = { l.store with poisoned := l.store.poisoned || f.breaksOff } := by
  rw [h.declines_iff]
  obtain ⟨place, contents, hlock, hinsert, hrun⟩ | ⟨f', hrun, hcause⟩ := insert_cases l.store table row
  · rw [hrun, hlock, hinsert]
    simp
  · rw [hrun]
    constructor
    · intro heq
      cases heq
      exact ⟨hcause, rfl⟩
    · rintro ⟨hcause', rfl⟩
      have heq : f' = f := by
        rcases hcause with ⟨hlock, rfl⟩ | ⟨hlock, hinsert⟩ <;>
          rcases hcause' with ⟨hlock', rfl⟩ | ⟨hlock', hinsert'⟩
        · rfl
        · simp [hlock] at hlock'
        · simp [hlock] at hlock'
        · rw [hinsert] at hinsert'
          exact Except.error.inj hinsert'
      rw [heq]

/-- Where there can be memory for a page, a row is refused only if its table is not there or has other
columns, and that changes nothing. -/
theorem Kept.insert_eq_error_iff_of_fits (h : l.Kept pageRows)
    (hfits : pageRows ≤ PageStore.maxPageRows) :
    (SharedStore.insert table row).run l.store = .error f s ↔
      s = l.store ∧ ((l.store.contents.tables[table.number]? = none ∧
          f = .refused (.unknownTable table)) ∨
        ∃ t, l.store.contents.table table = .ok t ∧ ¬ row.schema.Agrees t.schema ∧
          f = .refused (.mismatch row.schema t.name t.schema)) := by
  have hlock := h.whole hfits
  have hsame : ∀ e, ({ l.store with poisoned := l.store.poisoned ||
      (StoreFailure.refused e).breaksOff } : SharedStore) = l.store := by
    intro e
    rw [show (StoreFailure.refused e).breaksOff = false from rfl, Bool.or_false]
  rw [h.insert_eq_error_iff]
  constructor
  · rintro ⟨hdeclines, rfl⟩
    cases hdeclines with
    | poisoned hlock' =>
      rw [hlock] at hlock'
      cases hlock'
    | unknown _ hnone => exact ⟨hsame _, .inl ⟨hnone, rfl⟩⟩
    | mismatch _ ht hother => exact ⟨hsame _, .inr ⟨_, ht, hother, rfl⟩⟩
    | tooLarge _ _ _ hlarge => exact absurd hfits (Nat.not_le.2 hlarge)
  · rintro ⟨rfl, ⟨hnone, rfl⟩ | ⟨t, ht, hother, rfl⟩⟩
    · exact ⟨.unknown hlock hnone, (hsame _).symm⟩
    · exact ⟨.mismatch hlock ht hother, (hsame _).symm⟩

/-- A table that is added has no rows, and takes the first that fits it if there can be memory for a
page. -/
theorem Kept.createTable (h : l.Kept pageRows) (hlock : l.store.poisoned = false) (name : String)
    (schema : Schema) :
    let new : TableId := ⟨l.store.contents.tables.size⟩
    ∃ s, (SharedStore.createTable name schema).run l.store = .ok new s ∧
      s.contents.table new = .ok { name, schema } ∧
      (pageRows ≤ PageStore.maxPageRows → ∀ row : Row, row.schema.Agrees schema →
        ∃ s', (SharedStore.insert new row).run s = .ok ⟨0, 0⟩ s') := by
  intro new
  have htable : (l.store.contents.createTable name schema).2.table new = .ok { name, schema } := by
    rw [PageStore.table_eq_ok_iff]
    exact Array.getElem?_push_size
  refine ⟨_, createTable_run hlock name schema, htable, ?_⟩
  intro hfits row hagrees
  have hinsert : ∃ contents, (l.store.contents.createTable name schema).2.insert new row =
      .ok (⟨0, 0⟩, contents) := by
    refine ⟨_, PageStore.insert_eq_ok_iff.2 ⟨_, htable, hagrees, ?_, rfl, rfl⟩⟩
    intro hcramped
    have hlarge : PageStore.maxPageRows < l.store.contents.pageRows := hcramped.2
    rw [h.pageRows_eq] at hlarge
    exact absurd hfits (Nat.not_le.2 hlarge)
  obtain ⟨contents, hinsert⟩ := hinsert
  have hrun := insert_run (s := { l.store with
    contents := (l.store.contents.createTable name schema).2 }) hlock new row
  rw [hinsert] at hrun
  exact ⟨_, hrun⟩

end Log

/-! ## Rows that are added one by one -/

/-- Rows are added up to the first that is not taken; the store is what adding those before it leaves,
and what that one does to it. -/
theorem insertAll_cases (s : SharedStore) (table : TableId) (rows : List Row) :
    (∃ s', (insertAll table rows).run s = .ok () s' ∧
      (s.inserts table rows).map Inserted.row = rows) ∨
    ∃ good bad rest f s₁ s₂, rows = good ++ bad :: rest ∧
      (s.inserts table rows).map Inserted.row = good ∧
      (insertAll table good).run s = .ok () s₁ ∧ (insert table bad).run s₁ = .error f s₂ ∧
      (insertAll table rows).run s = .error f s₂ := by
  induction rows generalizing s with
  | nil => exact .inl ⟨s, rfl, rfl⟩
  | cons row rows ih =>
    have hcons := insertAll_cons_run s table row
    unfold inserts
    cases hinsert : (insert table row).run s with
    | error f s' =>
      rw [hinsert] at hcons
      exact .inr ⟨[], row, rows, f, s, s', rfl, rfl, rfl, hinsert, hcons rows⟩
    | ok place s' =>
      rw [hinsert] at hcons
      rcases ih s' with ⟨s'', hok, hrows⟩ | ⟨good, bad, rest, f, s₁, s₂, rfl, hgood, hdone, hbad, herror⟩
      · exact .inl ⟨s'', (hcons rows).trans hok, congrArg (row :: ·) hrows⟩
      · exact .inr ⟨row :: good, bad, rest, f, s₁, s₂, rfl, congrArg (row :: ·) hgood,
          (hcons good).trans hdone, hbad, (hcons _).trans herror⟩

namespace Log

variable {l : Log}

/-- What is put into a table comes behind the rows that it took before. -/
theorem of_next_insertAll (l : Log) (table : TableId) (rows : List Row) :
    (l.next (.insertAll table rows)).of table = l.of table ++ l.store.inserts table rows := by
  have hall : ∀ i ∈ l.store.inserts table rows, i.table = table := by
    generalize l.store = s
    induction rows generalizing s with
    | nil => exact nofun
    | cons row rows ih =>
      unfold inserts
      cases (SharedStore.insert table row).run s with
      | error f s' => exact nofun
      | ok place s' =>
        intro i hi
        rcases List.mem_cons.1 hi with rfl | hi
        · rfl
        · exact ih s' i hi
  show (l.inserted ++ l.store.inserts table rows).filter _ = _
  rw [List.filter_append, List.filter_eq_self.2 fun i hi => decide_eq_true (hall i hi)]
  rfl

/-- Rows that are added to one table leave the others as they were. -/
theorem table_next_insertAll (hne : other ≠ table) (l : Log) (rows : List Row) :
    (l.next (.insertAll table rows)).store.contents.table other = l.store.contents.table other := by
  induction rows generalizing l with
  | nil =>
    rw [next_insertAll_nil]
  | cons row rows ih =>
    obtain ⟨place, contents, -, hinsert, hrun⟩ | ⟨f, hrun, -⟩ := insert_cases l.store table row
    · rw [next_insertAll_of_ok hrun, ih]
      obtain ⟨t, -, -, rfl⟩ := PageStore.of_insert hinsert
      unfold PageStore.table
      rw [Array.getElem?_modify, if_neg fun hnumber => hne (congrArg TableId.mk hnumber).symm]
    · rw [next_insertAll_of_error hrun]

end Log

/-! ## After any calls -/

/-- What the tables hold after these calls on a new store, of which some may have failed. -/
structure Filled (pageRows : Nat) (actions : List Action) : Prop where
  /-- The number of a row among those of its table decides its page and its slot. -/
  place_eq : ∀ (table : TableId) (n : Nat) (i : Inserted),
    ((log pageRows actions).of table)[n]? = some i →
    i.place = ⟨n / max pageRows 1, n % max pageRows 1⟩
  /-- No two rows of a table have the same place. -/
  nodup_places : ∀ table : TableId, (((log pageRows actions).of table).map Inserted.place).Nodup
  /-- A table has the rows that it took, each with its place in it. -/
  rows_eq : ∀ (table : TableId) (t : Table),
    (log pageRows actions).store.contents.table table = .ok t →
    t.rows = ((log pageRows actions).of table).map fun i => { i.row with recordId := some i.place }
  /-- There are as many pages as it takes to hold the rows. -/
  size_pages : ∀ (table : TableId) (t : Table),
    (log pageRows actions).store.contents.table table = .ok t →
    t.pages.size = t.rows.length ⌈/⌉ max pageRows 1
  /-- No page is empty, and every page but the last is full. -/
  page_filled : ∀ (table : TableId) (t : Table),
    (log pageRows actions).store.contents.table table = .ok t →
    ∀ (k : Nat) (page : Array Row), t.pages[k]? = some page → 0 < page.size ∧
      page.size ≤ max pageRows 1 ∧ (k + 1 < t.pages.size → page.size = max pageRows 1)
  /-- A row is read from its place at every later time at which the page has no fault. -/
  fetchPage_later : ∀ (later : List Action) (i : Inserted), i ∈ (log pageRows actions).inserted →
    let after := (log pageRows (actions ++ later)).store
    (i.table, i.place.page) ∉ after.contents.faults →
      ∃ page s, (fetchPage i.table i.place.page).run after = .ok page s ∧
        page[i.place.slot]? = some { i.row with recordId := some i.place }
  /-- Rows that are added one by one are all stored, or exactly those before the first that is not
  taken. -/
  insertAll : ∀ (table : TableId) (rows : List Row),
    let now := log pageRows actions
    let done := now.next (.insertAll table rows)
    ((SharedStore.insertAll table rows).run now.store = .ok () done.store ∧
      (done.of table).map Inserted.row = (now.of table).map Inserted.row ++ rows) ∨
    ∃ good bad rest f s, rows = good ++ bad :: rest ∧
      (done.of table).map Inserted.row = (now.of table).map Inserted.row ++ good ∧
      (SharedStore.insertAll table good).run now.store = .ok () s ∧
      (SharedStore.insert table bad).run s = .error f done.store ∧
      (SharedStore.insertAll table rows).run now.store = .error f done.store
  /-- Rows that are added to one table leave the others as they were. -/
  others : ∀ table other : TableId, other ≠ table →
    let now := log pageRows actions
    (∀ row, (now.next (.insert table row)).store.contents.table other =
        now.store.contents.table other) ∧
      ∀ rows, (now.next (.insertAll table rows)).store.contents.table other =
        now.store.contents.table other
  /-- A row is not taken for one of the reasons that there are, and the tables are as they were. -/
  declines : ∀ (table : TableId) (row : Row) (f : StoreFailure) (s : SharedStore),
    let now := log pageRows actions
    (SharedStore.insert table row).run now.store = .error f s ↔
      Declines now.store (max pageRows 1) table row f ∧
        s = { now.store with poisoned := now.store.poisoned || f.breaksOff }
  /-- Behind a poisoned lock, calls change nothing. -/
  next_of_poisoned : (log pageRows actions).store.poisoned = true →
    ∀ action, (log pageRows actions).next action = log pageRows actions

/-- The store takes every row that fits its table after these calls. -/
structure Willing (pageRows : Nat) (actions : List Action) : Prop where
  /-- No call broke off. -/
  whole : (log pageRows actions).store.poisoned = false
  /-- A row is refused exactly if its table is not there or has other columns, which changes nothing. -/
  refused_iff : ∀ (table : TableId) (row : Row) (f : StoreFailure) (s : SharedStore),
    let now := (log pageRows actions).store
    (SharedStore.insert table row).run now = .error f s ↔
      s = now ∧ ((now.contents.tables[table.number]? = none ∧ f = .refused (.unknownTable table)) ∨
        ∃ t, now.contents.table table = .ok t ∧ ¬ row.schema.Agrees t.schema ∧
          f = .refused (.mismatch row.schema t.name t.schema))
  /-- A new table comes behind the others, has no rows, and takes the first that fits it. -/
  createTable : ∀ (name : String) (schema : Schema),
    let now := (log pageRows actions).store
    let new : TableId := ⟨now.contents.tables.size⟩
    ∃ s, (SharedStore.createTable name schema).run now = .ok new s ∧
      s.contents.table new = .ok { name, schema } ∧
      ∀ row : Row, row.schema.Agrees schema →
        ∃ s', (SharedStore.insert new row).run s = .ok ⟨0, 0⟩ s'

/-- Any calls leave the tables filled. -/
theorem filled_log (pageRows : Nat) (actions : List Action) : Filled pageRows actions := by
  have hkept := kept_log pageRows actions
  refine ⟨?_, hkept.nodup_places, ?_, ?_, ?_, ?_, ?_, ?_, ?_, ?_⟩
  · intro table n i hi
    exact hkept.place_eq hi
  · intro table t ht
    exact (hkept.holds (PageStore.table_eq_ok_iff.1 ht)).rows_eq
  · intro table t ht
    exact (hkept.holds (PageStore.table_eq_ok_iff.1 ht)).paged.size_pages
  · intro table t ht k page hpage
    exact (hkept.holds (PageStore.table_eq_ok_iff.1 ht)).paged.page_filled hpage
  · intro later i hi after hfault
    have hlater := (inserted_later pageRows actions later).subset hi
    exact (kept_log pageRows (actions ++ later)).fetchPage hlater hfault
  · intro table rows now done
    rw [show done.of table = _ from Log.of_next_insertAll now table rows, List.map_append]
    rcases insertAll_cases now.store table rows with
      ⟨s, hok, hrows⟩ | ⟨good, bad, rest, f, s₁, s₂, heq, hgood, hdone, hbad, herror⟩
    · have hstore : done.store = s := after_of_ok hok
      exact .inl ⟨hstore ▸ hok, by rw [hrows]⟩
    · have hstore : done.store = s₂ := after_of_error herror
      rw [hstore]
      exact .inr ⟨good, bad, rest, f, s₁, heq, by rw [hgood], hdone, hbad, herror⟩
  · intro table other hne now
    constructor
    · intro row
      rw [Log.next_insert]
      exact Log.table_next_insertAll hne now [row]
    · intro rows
      exact Log.table_next_insertAll hne now rows
  · intro table row f s now
    exact hkept.insert_eq_error_iff
  · intro hlock action
    exact Log.next_of_poisoned hlock action

/-- Where there can be memory for a page, the store takes every row that fits its table. -/
theorem willing_of_fits {pageRows : Nat} (h : max pageRows 1 ≤ PageStore.maxPageRows)
    (actions : List Action) : Willing pageRows actions := by
  have hkept := kept_log pageRows actions
  have hlock := hkept.whole h
  refine ⟨hlock, fun _ _ _ _ => hkept.insert_eq_error_iff_of_fits h, ?_⟩
  intro name schema now new
  obtain ⟨s, hs, htable, htakes⟩ := hkept.createTable hlock name schema
  exact ⟨s, hs, htable, htakes h⟩

/-- Where there cannot be, not even the first row of the first table is taken. -/
theorem fits_of_willing {pageRows : Nat} (h : Willing pageRows []) :
    max pageRows 1 ≤ PageStore.maxPageRows := by
  by_contra hlarge
  obtain ⟨s, hs, htable, htakes⟩ := h.createTable "t" (.ofTypes [])
  obtain ⟨s', hs'⟩ := htakes (.empty (.ofTypes [])) (.refl _)
  rw [show (log pageRows []).store.contents.tables.size = 0 from rfl] at hs'
  have hkept := (kept_log pageRows []).next (Nat.le_max_right _ _) (.createTable "t" (.ofTypes []))
  have hstore : ((log pageRows []).next (.createTable "t" (.ofTypes []))).store = s :=
    (after_discard _ _).trans (after_of_ok hs)
  let t : Table := { name := "t", schema := .ofTypes [] }
  have hdeclines : Declines ((log pageRows []).next (.createTable "t" (.ofTypes []))).store
      (max pageRows 1) ⟨0⟩ (.empty (.ofTypes [])) (.pageTooLarge (max pageRows 1)) :=
    .tooLarge (t := t) rfl rfl (.refl _) (Nat.not_le.1 hlarge)
  have herror := hkept.insert_eq_error_iff.2 ⟨hdeclines, rfl⟩
  rw [hstore, hs'] at herror
  cases herror

/-- Calls on a new store, of which some may fail, leave its tables filled in order, and it takes every
row that fits its table, whatever the calls, exactly if there can be memory for a page. -/
theorem log_paged (pageRows : Nat) :
    (∀ actions, Filled pageRows actions) ∧
      ((∀ actions, Willing pageRows actions) ↔ max pageRows 1 ≤ PageStore.maxPageRows) :=
  ⟨filled_log pageRows, fun h => fits_of_willing (h []), willing_of_fits⟩

/-- Pages for two rows. A row for a table that is not there is refused, and so is one with other columns,
which ends the adding of rows. The third row is read from the second page, and a second table takes a row
of its own. -/
theorem log_paged_of_refusals :
    let row : DataType → Row := fun type => .empty (.ofTypes [type])
    let actions : List Action := [.createTable "t" (.ofTypes [.int]), .insert ⟨0⟩ (row .int),
      .insert ⟨1⟩ (row .int), .insertAll ⟨0⟩ [row .int, row .int, row .str, row .int]]
    let now := log 2 actions
    now.inserted = [⟨⟨0⟩, ⟨0, 0⟩, row .int⟩, ⟨⟨0⟩, ⟨0, 1⟩, row .int⟩, ⟨⟨0⟩, ⟨1, 0⟩, row .int⟩] ∧
      (∃ page s, (fetchPage ⟨0⟩ 1).run now.store = .ok page s ∧
        page[0]? = some { row .int with recordId := some ⟨1, 0⟩ }) ∧
      ∃ s s', (createTable "u" (.ofTypes [.str])).run now.store = .ok ⟨1⟩ s ∧
        (insert ⟨1⟩ (row .str)).run s = .ok ⟨0, 0⟩ s' := by
  intro row actions now
  have hinserted : now.inserted =
      [⟨⟨0⟩, ⟨0, 0⟩, row .int⟩, ⟨⟨0⟩, ⟨0, 1⟩, row .int⟩, ⟨⟨0⟩, ⟨1, 0⟩, row .int⟩] := by decide +kernel
  have hsize : now.store.contents.tables.size = 1 := by decide +kernel
  have hfaults : now.store.contents.faults = [] := by decide +kernel
  have hfits : max 2 1 ≤ PageStore.maxPageRows := by decide
  have hnow : log 2 actions = now := rfl
  obtain ⟨hfilled, hwilling⟩ := log_paged 2
  refine ⟨hinserted, ?_, ?_⟩
  · have hlast := (hfilled actions).fetchPage_later [] ⟨⟨0⟩, ⟨1, 0⟩, row .int⟩
    simp only [List.append_nil] at hlast
    rw [hnow, hinserted, hfaults] at hlast
    exact hlast (by simp) (by simp)
  · obtain ⟨s, hs, -, htakes⟩ := (hwilling.2 hfits actions).createTable "u" (.ofTypes [.str])
    obtain ⟨s', hs'⟩ := htakes (row .str) (.refl _)
    rw [hnow, hsize] at hs hs'
    exact ⟨s, s', hs, hs'⟩

/-- Pages for as many rows as a word can count. The first row of a table fits its columns, but breaks off
the call, and after that not even the pages of the other table can be counted. -/
theorem log_breaks_off_at_top :
    let row : Row := .empty (.ofTypes [.int])
    let now := log Word.top [.createTable "t" (.ofTypes [.int]), .createTable "u" (.ofTypes [.int])]
    let broken := now.next (.insert ⟨0⟩ row)
    (∃ t, now.store.contents.table ⟨0⟩ = .ok t ∧ row.schema.Agrees t.schema) ∧
      (insert ⟨0⟩ row).run now.store = .error (.pageTooLarge Word.top) broken.store ∧
      (numPages ⟨1⟩).run now.store = .ok 0 now.store ∧
      (numPages ⟨1⟩).run broken.store = .error (.refused .lockPoisoned) broken.store :=
  ⟨⟨_, rfl, .refl _⟩, rfl, rfl, rfl⟩

end RowStream.SharedStore
