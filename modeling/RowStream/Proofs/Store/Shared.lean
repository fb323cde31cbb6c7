import RowStream.Proofs.Store.Growth
import RowStream.Store.Shared

/-!
# `RowStream.Proofs.Store.Shared` — working on a store in place

While the lock is whole, an access does to what it guards what the store does to itself, and nothing is
left of one that is refused. One that breaks off leaves the tables as they were, but the lock poisoned.
Behind a poisoned lock every access is refused and changes nothing.

## Contents
- `Table.lastPlace_eq`, `Table.putLast_eq` — a row that is put on the last page, begun for it if need be.
- `SharedStore.run_locked_bind`, `SharedStore.run_of_poisoned` — taking the lock, whole or poisoned.
- `SharedStore.createTable_run`, `SharedStore.insert_run`, `SharedStore.insertAll_run`,
  `SharedStore.fetchPage_run` and others — what the accesses do behind a whole lock.
- `SharedStore.insert_cases` — a row is put into the contents, or is not taken and leaves them.
-/

namespace RowStream

namespace Table

variable {t : Table} {pageRows : Nat} {full : Array (Array Row)} {page : Array Row}

/-- The table with the page on which the next row comes. -/
def roomy (t : Table) (pageRows : Nat) : Table :=
  if t.beginsPage pageRows then t.beginPage else t

theorem beginsPage_iff :
    t.beginsPage pageRows = true ↔ ∀ page, t.pages.back? = some page → pageRows ≤ page.size := by
  unfold beginsPage
  cases t.pages.back? with
  | none => simp
  | some page => simp

/-- Otherwise the last page has room. -/
theorem exists_room (h : ¬ t.beginsPage pageRows = true) :
    ∃ page, t.pages.back? = some page ∧ page.size < pageRows := by
  simpa [beginsPage_iff] using h

/-- The place behind the last row is that of the next row. -/
theorem lastPlace_eq (t : Table) (pageRows : Nat) :
    (t.roomy pageRows).lastPlace = t.nextPlace pageRows := by
  unfold roomy
  by_cases hbegins : t.beginsPage pageRows = true
  · rw [if_pos hbegins, nextPlace_of_full (beginsPage_iff.1 hbegins)]
    simp [lastPlace, beginPage]
  · obtain ⟨page, hback, hroom⟩ := exists_room hbegins
    rw [if_neg hbegins, nextPlace_of_room hback hroom]
    simp [lastPlace, hback]

/-- A row that is put on the last page is put behind the rows of that. -/
theorem pages_putLast (hpages : t.pages = full.push page) (row : Row) :
    (t.putLast row).pages = full.push (page.push { row with recordId := some t.lastPlace }) := by
  unfold putLast
  apply Array.ext_getElem?
  intro i
  rw [hpages, Array.getElem?_modify, Array.size_push, Nat.add_sub_cancel, Array.getElem?_push,
    Array.getElem?_push]
  by_cases hi : i = full.size
  · simp [hi]
  · simp [hi, Ne.symm hi]

/-- A row that is put on the last page, begun for it if need be, is appended. -/
theorem putLast_eq (t : Table) (pageRows : Nat) (row : Row) :
    (t.roomy pageRows).putLast row = t.append pageRows row := by
  -- only the pages change
  have hput : (t.roomy pageRows).putLast row =
      { t with pages := ((t.roomy pageRows).putLast row).pages } := by
    unfold roomy
    split <;> rfl
  have happend : t.append pageRows row = { t with pages := (t.append pageRows row).pages } := by
    unfold append
    split
    · split <;> rfl
    · rfl
  rw [hput, happend]
  congr 1
  by_cases hbegins : t.beginsPage pageRows = true
  · have hpages : (t.roomy pageRows).pages = t.pages.push #[] := by
      rw [roomy, if_pos hbegins]
      rfl
    rw [pages_putLast hpages, lastPlace_eq, pages_append_of_full (beginsPage_iff.1 hbegins)]
    rfl
  · obtain ⟨page, hback, hroom⟩ := exists_room hbegins
    obtain ⟨full, hpages⟩ := Array.back?_eq_some_iff.1 hback
    have hsame : (t.roomy pageRows).pages = full.push page := by
      rw [roomy, if_neg hbegins, hpages]
    rw [pages_putLast hsame, lastPlace_eq, pages_append_of_room hback hroom, hpages, Array.pop_push]

end Table

namespace SharedStore

variable {s s' : SharedStore} {table : TableId} {row : Row} {α β : Type}

/-! ## The lock -/

/-- Behind a whole lock, an access goes on with what the lock guards. -/
theorem run_locked_bind (h : s.poisoned = false) (k : PageStore → StoreAccess α) :
    (locked >>= k).run s = (k s.contents).run s := by
  unfold locked
  simp [h]

/-- Behind a poisoned lock, an access is refused and changes nothing. -/
theorem run_of_poisoned (h : s.poisoned = true) (k : PageStore → StoreAccess α) :
    (locked >>= k).run s = .error (.refused .lockPoisoned) s := by
  unfold locked
  simp [h]

/-- What the store answers, or why it refuses to. -/
theorem run_answer_bind (result : Except StoreError α) (k : α → StoreAccess β) (s : SharedStore) :
    (answer result >>= k).run s =
      match result with
      | .ok a => (k a).run s
      | .error e => .error (.refused e) s := by
  cases result <;> rfl

/-! ## Accesses behind a whole lock -/

theorem createTable_run (h : s.poisoned = false) (name : String) (schema : Schema) :
    (createTable name schema).run s =
      .ok (s.contents.createTable name schema).1
        { s with contents := (s.contents.createTable name schema).2 } := by
  unfold createTable
  rw [run_locked_bind h]
  rfl

theorem failPage_run (h : s.poisoned = false) (table : TableId) (page : Nat) :
    (failPage table page).run s = .ok () { s with contents := s.contents.failPage table page } := by
  unfold failPage
  rw [run_locked_bind h]
  rfl

theorem clearFaults_run (h : s.poisoned = false) :
    clearFaults.run s = .ok () { s with contents := s.contents.clearFaults } := by
  unfold clearFaults
  rw [run_locked_bind h]
  rfl

theorem fetchPage_run (h : s.poisoned = false) (table : TableId) (page : Nat) :
    (fetchPage table page).run s =
      match s.contents.fetchPage table page with
      | .ok (rows, contents) => .ok rows { s with contents }
      | .error e => .error (.refused e) s := by
  unfold fetchPage
  rw [run_locked_bind h, run_answer_bind, PageStore.fetchPage]
  cases s.contents.readPage table page <;> rfl

/-- A row is put behind those of the last page of a table that is there. -/
theorem putLast_run {t : Table} (ht : s.contents.table table = .ok t) (row : Row) :
    (putLast table row).run s =
      .ok t.lastPlace { s with contents := { s.contents with
        tables := s.contents.tables.modify table.number (·.putLast row) } } := by
  unfold putLast
  rw [EStateM.run_bind, EStateM.run_get]
  show (answer (s.contents.table table) >>= _).run s = _
  rw [run_answer_bind, ht]
  rfl

/-- A page is begun, or the access breaks off and leaves the lock poisoned. -/
theorem beginPage_run (s : SharedStore) (table : TableId) :
    (beginPage table).run s =
      if PageStore.maxPageRows < s.contents.pageRows then
        .error (.pageTooLarge s.contents.pageRows) { s with poisoned := true }
      else
        .ok () { s with contents := { s.contents with
          tables := s.contents.tables.modify table.number Table.beginPage } } := by
  unfold beginPage
  by_cases hlarge : PageStore.maxPageRows < s.contents.pageRows
  · simp only [EStateM.run_bind, EStateM.run_get, hlarge, if_true]
    rfl
  · simp only [EStateM.run_bind, EStateM.run_get, hlarge, if_false]
    rfl

/-- Two changes of a table that come to the same for it. -/
theorem modify_congr {tables : Array Table} {i : Nat} {t : Table} {f g : Table → Table}
    (ht : tables[i]? = some t) (hfg : f t = g t) : tables.modify i f = tables.modify i g := by
  apply Array.ext_getElem?
  intro k
  rw [Array.getElem?_modify, Array.getElem?_modify]
  by_cases hk : i = k
  · subst hk
    rw [if_pos rfl, if_pos rfl, ht, Option.map_some, Option.map_some, hfg]
  · rw [if_neg hk, if_neg hk]

theorem modify_modify (tables : Array Table) (i : Nat) (f g : Table → Table) :
    (tables.modify i f).modify i g = tables.modify i (g ∘ f) := by
  apply Array.ext_getElem?
  intro k
  rw [Array.getElem?_modify, Array.getElem?_modify, Array.getElem?_modify]
  by_cases hk : i = k
  · rw [if_pos hk, if_pos hk, if_pos hk, Option.map_map]
  · rw [if_neg hk, if_neg hk, if_neg hk]

/-- A row comes onto the last page, for which one is begun if need be and there can be memory. -/
theorem place_run {t : Table} (ht : s.contents.table table = .ok t) (row : Row) :
    (do
      if t.beginsPage s.contents.pageRows then
        beginPage table
      putLast table row : StoreAccess RecordId).run s =
      if s.contents.Cramped t then
        .error (.pageTooLarge s.contents.pageRows) { s with poisoned := true }
      else
        .ok (t.nextPlace s.contents.pageRows) { s with contents := { s.contents with
          tables := s.contents.tables.modify table.number
            fun t => t.append s.contents.pageRows row } } := by
  have hthere := PageStore.table_eq_ok_iff.1 ht
  have hput := t.putLast_eq s.contents.pageRows row
  have hplace := t.lastPlace_eq s.contents.pageRows
  unfold Table.roomy at hput hplace
  by_cases hbegins : t.beginsPage s.contents.pageRows = true
  · rw [if_pos hbegins] at hput hplace
    rw [if_pos hbegins, EStateM.run_bind, beginPage_run]
    by_cases hlarge : PageStore.maxPageRows < s.contents.pageRows
    · have hcramped : s.contents.Cramped t := ⟨hbegins, hlarge⟩
      rw [if_pos hlarge, if_pos hcramped]
    · -- the page is there now, and the row is put on it
      have hnow : (s.contents.tables.modify table.number Table.beginPage)[table.number]? =
          some t.beginPage := by
        rw [Array.getElem?_modify, if_pos rfl, hthere]
        rfl
      have hfits : ¬ s.contents.Cramped t := fun hcramped => hlarge hcramped.2
      rw [if_neg hlarge, if_neg hfits]
      refine (putLast_run (PageStore.table_eq_ok_iff.2 hnow) row).trans ?_
      rw [hplace, modify_modify, modify_congr (f := (fun t : Table => t.putLast row) ∘ Table.beginPage)
        (g := fun t => t.append s.contents.pageRows row) hthere hput]
  · rw [if_neg hbegins] at hput hplace
    have hfits : ¬ s.contents.Cramped t := fun hcramped => hbegins hcramped.1
    rw [if_neg hbegins, if_neg hfits]
    refine (putLast_run ht row).trans ?_
    rw [hplace, modify_congr (g := fun t => t.append s.contents.pageRows row) hthere hput]

/-- A row comes into its table as the store puts it there. If it does not, the tables are as they were,
and the lock is poisoned if the access broke off. -/
theorem insert_run (h : s.poisoned = false) (table : TableId) (row : Row) :
    (insert table row).run s =
      match s.contents.insert table row with
      | .ok (place, contents) => .ok place { s with contents }
      | .error f => .error f { s with poisoned := f.breaksOff } := by
  unfold insert
  rw [run_locked_bind h, run_answer_bind]
  cases ht : s.contents.table table with
  | error e =>
    rw [PageStore.insert_of_no_table ht]
    show EStateM.Result.error _ s = .error _ { s with poisoned := false }
    rw [← h]
  | ok t =>
    rw [PageStore.insert_of_table ht]
    by_cases hagrees : row.schema.Agrees t.schema
    · simp only [hagrees, not_true, if_false]
      refine (place_run ht row).trans ?_
      by_cases hcramped : s.contents.Cramped t
      · rw [if_pos hcramped, if_pos hcramped]
        rfl
      · rw [if_neg hcramped, if_neg hcramped]
    · simp only [hagrees, not_false_eq_true, if_true]
      show EStateM.Result.error _ s = .error _ { s with poisoned := false }
      rw [← h]

/-- A row is taken, behind a whole lock; or it is not, and then the tables are as they were. -/
theorem insert_cases (s : SharedStore) (table : TableId) (row : Row) :
    (∃ place contents, s.poisoned = false ∧ s.contents.insert table row = .ok (place, contents) ∧
      (insert table row).run s = .ok place { s with contents }) ∨
    ∃ f, (insert table row).run s = .error f { s with poisoned := s.poisoned || f.breaksOff } ∧
      (s.poisoned = true ∧ f = .refused .lockPoisoned ∨
        s.poisoned = false ∧ s.contents.insert table row = .error f) := by
  cases hlock : s.poisoned with
  | true =>
    refine .inr ⟨_, (run_of_poisoned hlock _).trans ?_, .inl ⟨rfl, rfl⟩⟩
    rw [Bool.true_or, ← hlock]
  | false =>
    have hrun := insert_run hlock table row
    cases hinsert : s.contents.insert table row with
    | error f =>
      rw [hinsert] at hrun
      exact .inr ⟨f, hrun, .inr ⟨rfl, rfl⟩⟩
    | ok added =>
      rw [hinsert, hlock] at hrun
      exact .inl ⟨_, _, rfl, rfl, hrun⟩

/-- Rows come into their table one by one, up to the first that does not. -/
theorem insertAll_cons_run (s : SharedStore) (table : TableId) (row : Row) (rows : List Row) :
    (insertAll table (row :: rows)).run s =
      match (insert table row).run s with
      | .ok _ s' => (insertAll table rows).run s'
      | .error f s' => .error f s' := by
  show ((discard (insert table row) : StoreAccess Unit) >>= fun _ => insertAll table rows).run s = _
  rw [show (discard (insert table row) : StoreAccess Unit) = insert table row >>= fun _ => pure ()
    from rfl, bind_assoc, EStateM.run_bind]
  cases (insert table row).run s <;> rfl

/-- So the store puts them there, too. -/
theorem insertAll_run (h : s.poisoned = false) (table : TableId) (rows : List Row) :
    (insertAll table rows).run s =
      match s.contents.insertAll table rows with
      | (.ok (), contents) => .ok () { s with contents }
      | (.error f, contents) => .error f { contents, poisoned := f.breaksOff } := by
  induction rows generalizing s with
  | nil => rfl
  | cons row rows ih =>
    rw [insertAll_cons_run, insert_run h]
    unfold PageStore.insertAll
    cases s.contents.insert table row with
    | error f => rfl
    | ok added => exact ih h

end SharedStore

end RowStream
