import RowStream.Store.Basic

/-!
# `RowStream.Proofs.Store.Sound` — stores that can come about

Tables and rows are only ever added, and a row is taken only if its types are those of its table. So
in every store that can come about, the rows that are read fit the columns of their table, and a
table that is once there keeps its columns.

## Contents
- `PageStore.Step`, `PageStore.Reached` — what can be done to a store, and the stores to which that
  leads.
- `PageStore.Sound`, `sound_of_reached` — the rows of a table fit its columns.
- `insert_eq_ok_iff`, `insert_eq_error_iff` — which rows are taken, and why others are not.
- `pageReads_countReads` — what the counters count.
- `Step.columns_eq` — a table keeps its columns.
- `ReadsLike`, `readsLike_countReads` — stores of which the same is read; the counters play no part.
- `readPage_of_no_fault` — a page without a fault can be read.
-/

namespace RowStream.PageStore

/-- What can be done to a store: by those who fill it, by those who break it, and by reading it. -/
inductive Step : PageStore → PageStore → Prop where
  /-- A new table. -/
  | createTable (s : PageStore) (name : String) (schema : Schema) :
    Step s (s.createTable name schema).2
  /-- A new row. -/
  | insert {s s' : PageStore} {table : TableId} {row : Row} {place : RecordId} :
    s.insert table row = .ok (place, s') → Step s s'
  /-- A page that becomes unreadable. -/
  | failPage (s : PageStore) (table : TableId) (page : Nat) : Step s (s.failPage table page)
  /-- All pages that become readable again. -/
  | clearFaults (s : PageStore) : Step s s.clearFaults
  /-- Pages that are handed out. -/
  | countReads (s : PageStore) (reads : List TableId) : Step s (s.countReads reads)

/-- The stores that can come about. -/
inductive Reached : PageStore → Prop where
  /-- A store without tables. -/
  | empty (pageRows : Nat) : Reached (empty pageRows)
  /-- One more step. -/
  | step {s s' : PageStore} : Reached s → Step s s' → Reached s'

/-- Adding rows one by one, up to the first that is refused. -/
theorem Reached.insertAll {s : PageStore} (h : Reached s) (table : TableId) (rows : List Row) :
    Reached (s.insertAll table rows).2 := by
  induction rows generalizing s with
  | nil => exact h
  | cons row rows ih =>
    unfold PageStore.insertAll
    cases hinsert : s.insert table row with
    | ok added => exact ih (h.step (.insert hinsert))
    | error e => exact h

/-- The rows of every table fit its columns. -/
def Sound (s : PageStore) : Prop :=
  ∀ t ∈ s.tables, ∀ row ∈ t.rows, row.schema.Agrees t.schema

/-- The columns of a table, if it is there. -/
def columns? (s : PageStore) (table : TableId) : Option Schema :=
  s.tables[table.number]?.map Table.schema

theorem columns?_of_table {s : PageStore} {table : TableId} {t : Table}
    (h : s.table table = .ok t) : s.columns? table = some t.schema := by
  unfold PageStore.table at h
  unfold columns?
  cases ht : s.tables[table.number]? with
  | none => simp [ht] at h
  | some found =>
    simp only [ht, Except.ok.injEq] at h
    simp [h]

theorem table_of_columns? {s : PageStore} {table : TableId} {schema : Schema}
    (h : s.columns? table = some schema) : ∃ t, s.table table = .ok t ∧ t.schema = schema := by
  unfold columns? at h
  unfold PageStore.table
  cases ht : s.tables[table.number]? with
  | none => simp [ht] at h
  | some t =>
    simp only [ht, Option.map_some, Option.some.injEq] at h
    exact ⟨t, rfl, h⟩

/-! ## Steps that change single tables -/

/-- What holds of all tables goes on to do so if it goes on for the one that is changed. -/
theorem forall_mem_modify {P : Table → Prop} {tables : Array Table} {i : Nat} {f : Table → Table}
    (h : ∀ t ∈ tables, P t) (hf : ∀ t, tables[i]? = some t → P t → P (f t)) :
    ∀ t ∈ tables.modify i f, P t := by
  intro t ht
  obtain ⟨k, hk, rfl⟩ := Array.mem_iff_getElem.1 ht
  have hk' : k < tables.size := by simpa using hk
  rw [Array.getElem_modify hk]
  by_cases hi : i = k
  · subst hi
    rw [if_pos rfl]
    exact hf _ (Array.getElem?_eq_getElem hk') (h _ (Array.getElem_mem hk'))
  · rw [if_neg hi]
    exact h _ (Array.getElem_mem hk')

/-- A store that is like another up to what `f` does to one of its tables. -/
theorem sound_modify {s : PageStore} (hs : s.Sound) {i : Nat} {f : Table → Table}
    (hf : ∀ t, s.tables[i]? = some t → (∀ row ∈ t.rows, row.schema.Agrees t.schema) →
      ∀ row ∈ (f t).rows, row.schema.Agrees (f t).schema) :
    Sound { s with tables := s.tables.modify i f } :=
  forall_mem_modify hs hf

theorem columns?_modify (s : PageStore) (i : Nat) {f : Table → Table}
    (hf : ∀ t, (f t).schema = t.schema) (table : TableId) :
    columns? { s with tables := s.tables.modify i f } table = s.columns? table := by
  unfold columns?
  simp only [Array.getElem?_modify]
  by_cases hi : i = table.number
  · simp only [hi, if_true]
    cases s.tables[table.number]? <;> simp [hf]
  · simp only [hi, if_false]

theorem schema_append (t : Table) (pageRows : Nat) (row : Row) :
    (t.append pageRows row).schema = t.schema := by
  unfold Table.append
  cases t.pages.back? with
  | none => rfl
  | some page =>
    simp only
    split <;> rfl

theorem table_eq_ok_iff {s : PageStore} {table : TableId} {t : Table} :
    s.table table = .ok t ↔ s.tables[table.number]? = some t := by
  unfold PageStore.table
  cases s.tables[table.number]? with
  | none => simp
  | some found => simp

theorem table_eq_error_iff {s : PageStore} {table : TableId} {e : StoreError} :
    s.table table = .error e ↔ s.tables[table.number]? = none ∧ e = .unknownTable table := by
  unfold PageStore.table
  cases s.tables[table.number]? with
  | none => simp [eq_comm]
  | some found => simp

/-- What comes of a row for a table that is there. -/
theorem insert_of_table {s : PageStore} {table : TableId} {t : Table} (ht : s.table table = .ok t)
    (row : Row) : s.insert table row =
      if ¬ row.schema.Agrees t.schema then
        .error (.refused (.mismatch row.schema t.name t.schema))
      else if s.Cramped t then
        .error (.pageTooLarge s.pageRows)
      else .ok (t.nextPlace s.pageRows,
        { s with tables := s.tables.modify table.number fun t => t.append s.pageRows row }) := by
  unfold PageStore.insert
  rw [ht]
  rfl

/-- Without its table, a row is refused. -/
theorem insert_of_no_table {s : PageStore} {table : TableId} {e : StoreError}
    (ht : s.table table = .error e) (row : Row) : s.insert table row = .error (.refused e) := by
  unfold PageStore.insert
  rw [ht]
  rfl

/-- A row is taken exactly if it fits its table and does not begin a page too large for any memory,
which answers its next place, and the store is the old one up to that table. -/
theorem insert_eq_ok_iff {s s' : PageStore} {table : TableId} {row : Row} {place : RecordId} :
    s.insert table row = .ok (place, s') ↔
      ∃ t, s.table table = .ok t ∧ row.schema.Agrees t.schema ∧ ¬ s.Cramped t ∧
        place = t.nextPlace s.pageRows ∧
        s' = { s with tables := s.tables.modify table.number fun t => t.append s.pageRows row } := by
  cases ht : s.table table with
  | error e =>
    rw [insert_of_no_table ht]
    simp
  | ok t =>
    rw [insert_of_table ht]
    by_cases hagrees : row.schema.Agrees t.schema
    · rw [if_neg (not_not_intro hagrees)]
      by_cases hcramped : s.Cramped t
      · rw [if_pos hcramped]
        simp [hcramped]
      · rw [if_neg hcramped]
        simp [hagrees, hcramped, eq_comm]
    · rw [if_pos hagrees]
      simp [hagrees]

/-- A row is not taken exactly if its table is not there, has other columns, or must begin a page that
is too large for any memory; the first of these is told. -/
theorem insert_eq_error_iff {s : PageStore} {table : TableId} {row : Row} {f : StoreFailure} :
    s.insert table row = .error f ↔
      (s.tables[table.number]? = none ∧ f = .refused (.unknownTable table)) ∨
        ∃ t, s.table table = .ok t ∧
          (¬ row.schema.Agrees t.schema ∧ f = .refused (.mismatch row.schema t.name t.schema) ∨
            row.schema.Agrees t.schema ∧ s.Cramped t ∧ f = .pageTooLarge s.pageRows) := by
  cases ht : s.table table with
  | error e =>
    rw [insert_of_no_table ht]
    obtain ⟨hnone, rfl⟩ := table_eq_error_iff.1 ht
    simp [hnone, eq_comm]
  | ok t =>
    have hthere := table_eq_ok_iff.1 ht
    rw [insert_of_table ht]
    by_cases hagrees : row.schema.Agrees t.schema
    · rw [if_neg (not_not_intro hagrees)]
      by_cases hcramped : s.Cramped t
      · rw [if_pos hcramped]
        simp [hthere, hagrees, hcramped, eq_comm]
      · rw [if_neg hcramped]
        simp [hthere, hagrees, hcramped]
    · rw [if_pos hagrees]
      simp [hthere, hagrees, eq_comm]

/-- A row that is taken fits its table, and the store is the old one up to that table. -/
theorem of_insert {s s' : PageStore} {table : TableId} {row : Row} {place : RecordId}
    (h : s.insert table row = .ok (place, s')) :
    ∃ t, s.table table = .ok t ∧ row.schema.Agrees t.schema ∧
      s' = { s with tables := s.tables.modify table.number fun t => t.append s.pageRows row } := by
  obtain ⟨t, ht, hagrees, -, -, hs⟩ := insert_eq_ok_iff.1 h
  exact ⟨t, ht, hagrees, hs⟩

/-- Counting reads changes the counters of single tables only. -/
theorem countReads_cons (s : PageStore) (table : TableId) (reads : List TableId) :
    s.countReads (table :: reads) =
      ({ s with tables := s.tables.modify table.number fun t => { t with reads := t.reads + 1 } } :
        PageStore).countReads reads := rfl

theorem countReads_countReads (s : PageStore) (reads more : List TableId) :
    (s.countReads reads).countReads more = s.countReads (reads ++ more) := by
  unfold countReads
  simp only [List.foldl_append]

/-- Each read of a table that is there is counted once. -/
theorem pageReads_countReads {s : PageStore} {table : TableId} {t : Table}
    (ht : s.tables[table.number]? = some t) (reads : List TableId) :
    (s.countReads reads).pageReads table = s.pageReads table + reads.count table := by
  induction reads generalizing s t with
  | nil => rfl
  | cons y reads ih =>
    rw [countReads_cons]
    by_cases hy : y = table
    · subst hy
      have hcounted : (s.tables.modify y.number fun t => { t with reads := t.reads + 1 })[y.number]? =
          some { t with reads := t.reads + 1 } := by
        rw [Array.getElem?_modify, if_pos rfl, ht]
        rfl
      rw [ih hcounted, List.count_cons_self]
      unfold pageReads
      rw [hcounted, ht]
      show t.reads + 1 + _ = t.reads + _
      omega
    · have hnumber : y.number ≠ table.number := fun h => hy (by cases y; cases table; cases h; rfl)
      have hother : (s.tables.modify y.number fun t => { t with reads := t.reads + 1 })[table.number]? =
          some t := by
        rw [Array.getElem?_modify, if_neg hnumber, ht]
      rw [ih hother, List.count_cons_of_ne hy]
      unfold pageReads
      rw [hother, ht]

/-! ## The invariants -/

theorem sound_empty (pageRows : Nat) : (empty pageRows).Sound := by
  intro t ht
  simp [empty] at ht

theorem sound_countReads {s : PageStore} (hs : s.Sound) (reads : List TableId) :
    (s.countReads reads).Sound := by
  induction reads generalizing s with
  | nil => exact hs
  | cons table reads ih =>
    rw [countReads_cons]
    exact ih (sound_modify hs fun t _ ht => ht)

/-- No step lets a row into a table whose columns it does not fit. -/
theorem Step.sound {s s' : PageStore} (h : Step s s') (hs : s.Sound) : s'.Sound := by
  cases h with
  | createTable name schema =>
    intro t ht row hrow
    rcases Array.mem_push.1 (show t ∈ s.tables.push _ from ht) with ht | rfl
    · exact hs t ht row hrow
    · simp [Table.rows] at hrow
  | insert h =>
    obtain ⟨t, ht, hagree, rfl⟩ := of_insert h
    refine sound_modify hs fun t' ht' hrows row hrow => ?_
    have htt : t' = t := by
      unfold PageStore.table at ht
      rw [ht'] at ht
      exact Except.ok.inj ht
    rw [schema_append]
    rw [Table.rows_append] at hrow
    rcases List.mem_append.1 hrow with hrow | hrow
    · exact hrows row hrow
    · rw [List.mem_singleton.1 hrow, htt]
      exact hagree
  | failPage table page => exact hs
  | clearFaults => exact hs
  | countReads reads => exact sound_countReads hs reads

/-- In every store that can come about, the rows of every table fit its columns. -/
theorem sound_of_reached {s : PageStore} (h : Reached s) : s.Sound := by
  induction h with
  | empty pageRows => exact sound_empty pageRows
  | step _ hstep ih => exact hstep.sound ih

theorem columns?_countReads (s : PageStore) (reads : List TableId) (table : TableId) :
    (s.countReads reads).columns? table = s.columns? table := by
  induction reads generalizing s with
  | nil => rfl
  | cons t reads ih =>
    rw [countReads_cons, ih]
    exact columns?_modify s t.number (f := fun t => { t with reads := t.reads + 1 }) (fun _ => rfl)
      table

/-- A table keeps its columns. -/
theorem Step.columns_eq {s s' : PageStore} (h : Step s s') {table : TableId} {schema : Schema}
    (ht : s.columns? table = some schema) : s'.columns? table = some schema := by
  cases h with
  | createTable name new =>
    unfold columns? at ht ⊢
    show ((s.tables.push { name, schema := new })[table.number]?.map Table.schema) = some schema
    rw [Array.getElem?_push]
    by_cases hlast : table.number = s.tables.size
    · simp [hlast] at ht
    · rw [if_neg hlast]
      exact ht
  | insert h =>
    obtain ⟨t, -, -, rfl⟩ := of_insert h
    rw [← ht]
    exact columns?_modify s _ (fun t => schema_append t s.pageRows _) table
  | failPage t page => exact ht
  | clearFaults => exact ht
  | countReads reads => rw [columns?_countReads, ht]

/-- A row that is read is a row of its table. -/
theorem mem_rows_of_readPage {s : PageStore} {table : TableId} {page : Nat} {rows : Array Row}
    (h : s.readPage table page = .ok rows) {row : Row} (hrow : row ∈ rows.toList) :
    ∃ t, s.table table = .ok t ∧ t ∈ s.tables ∧ row ∈ t.rows := by
  unfold PageStore.readPage at h
  by_cases hfault : (table, page) ∈ s.faults
  · rw [if_pos hfault] at h
    cases h
  rw [if_neg hfault] at h
  unfold PageStore.table at h ⊢
  cases ht : s.tables[table.number]? with
  | none => simp [ht, bind, Except.bind] at h
  | some t =>
    simp only [ht, bind, Except.bind] at h
    refine ⟨t, rfl, Array.mem_of_getElem? ht, ?_⟩
    cases hp : t.pages[page]? with
    | none => simp [hp, throw, throwThe, MonadExceptOf.throw] at h
    | some found =>
      simp only [hp, pure, Except.pure, Except.ok.injEq] at h
      subst h
      exact List.mem_flatMap.2 ⟨found, Array.mem_toList_iff.2 (Array.mem_of_getElem? hp), hrow⟩

/-! ## What reading leaves alone, and stores without faults -/

/-- What is read of the one store is read of the other: the contents and the faults are the same. -/
structure ReadsLike (s s' : PageStore) : Prop where
  /-- A table has as many pages. -/
  numPages_eq : ∀ table, s'.numPages table = s.numPages table
  /-- A page has the same rows, or cannot be read. -/
  readPage_eq : ∀ table page, s'.readPage table page = s.readPage table page

theorem ReadsLike.trans {s s' s'' : PageStore} (h : s.ReadsLike s') (h' : s'.ReadsLike s'') :
    s.ReadsLike s'' where
  numPages_eq table := (h'.numPages_eq table).trans (h.numPages_eq table)
  readPage_eq table page := (h'.readPage_eq table page).trans (h.readPage_eq table page)

/-- Counting one page changes nothing that is read. -/
theorem readsLike_count (s : PageStore) (read : TableId) : s.ReadsLike { s with
    tables := s.tables.modify read.number fun t => { t with reads := t.reads + 1 } } where
  numPages_eq := by
    intro table
    unfold numPages PageStore.table
    simp only [Array.getElem?_modify]
    by_cases ht : read.number = table.number
    · cases s.tables[table.number]? <;> simp [ht, bind, Except.bind]
    · simp only [ht, if_false]
  readPage_eq := by
    intro table page
    unfold readPage PageStore.table
    simp only [Array.getElem?_modify]
    by_cases ht : read.number = table.number
    · cases s.tables[table.number]? <;> simp [ht, bind, Except.bind]
    · simp only [ht, if_false]

/-- The counters play no part in what is read. -/
theorem readsLike_countReads (s : PageStore) (reads : List TableId) :
    s.ReadsLike (s.countReads reads) := by
  induction reads generalizing s with
  | nil => exact ⟨fun _ => rfl, fun _ _ => rfl⟩
  | cons read reads ih =>
    rw [countReads_cons]
    exact (s.readsLike_count read).trans (ih _)

/-- A table that is there has its pages. -/
theorem numPages_of_table {s : PageStore} {table : TableId} {t : Table} (ht : s.table table = .ok t) :
    s.numPages table = .ok t.pages.size := by
  unfold numPages
  rw [ht]
  rfl

/-- A page that a table has can be read, unless it is faulty. -/
theorem readPage_of_no_fault {s : PageStore} {table : TableId} {page : Nat}
    (hfault : (table, page) ∉ s.faults) {t : Table} (ht : s.table table = .ok t)
    (hpage : page < t.pages.size) : s.readPage table page = .ok t.pages[page] := by
  unfold readPage
  rw [if_neg hfault, ht]
  simp [bind, Except.bind, hpage, pure, Except.pure]

end RowStream.PageStore
