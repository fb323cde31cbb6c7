import RowStream.InPlace
import RowStream.Store.Basic

/-!
# `RowStream.Store.Shared` — a store behind a lock

Whoever accesses a store takes its lock, works on it in place and gives the lock back. What was done
before a failure stays done. An access that breaks off while it holds the lock leaves the lock poisoned,
and from then on every access is refused.

## Contents
- `Table.beginPage`, `Table.putLast` — one more page, and one more row on the last page.
- `SharedStore`, `StoreAccess` — a store with the state of its lock, and what is done to it in place.
- `SharedStore.locked`, `SharedStore.answer` — taking the lock, and passing on what the store answers.
- `SharedStore.createTable`, `SharedStore.insert`, `SharedStore.insertAll` — adding tables and rows.
- `SharedStore.failPage`, `SharedStore.clearFaults`, `SharedStore.fetchPage` and others — faults, and
  what can be asked.
-/

namespace RowStream

namespace Table

/-- The table with one more page, which has no rows yet. -/
def beginPage (t : Table) : Table := { t with pages := t.pages.push #[] }

/-- The place behind the rows of the last page. -/
def lastPlace (t : Table) : RecordId :=
  ⟨t.pages.size - 1, (t.pages.back?.map Array.size).getD 0⟩

/-- The table with one more row on its last page. The row remembers its place. -/
def putLast (t : Table) (row : Row) : Table :=
  let row := { row with recordId := some t.lastPlace }
  { t with pages := t.pages.modify (t.pages.size - 1) (·.push row) }

end Table

/-- A store behind a lock. -/
structure SharedStore where
  /-- What the lock guards. -/
  contents : PageStore
  /-- Whether an access broke off while it held the lock. -/
  poisoned : Bool := false
  deriving DecidableEq, Repr

/-- An access to a shared store. It leaves a store behind whether it fails or not. -/
abbrev StoreAccess (α : Type) : Type := InPlace StoreFailure SharedStore α

namespace SharedStore

variable {α : Type}

/-- The store without tables, whose pages hold the given number of rows, but at least one. -/
def empty (pageRows : Nat) : SharedStore := { contents := .empty pageRows }

/-- The store without tables, with pages as the settings ask. -/
def ofConfig (config : Config) : SharedStore := { contents := .ofConfig config }

/-- Takes the lock and shows what it guards. -/
def locked : StoreAccess PageStore := do
  let s ← get
  if s.poisoned then throw (.refused .lockPoisoned)
  return s.contents

/-- Passes on what the store answers, or why it refuses to. -/
def answer (result : Except StoreError α) : StoreAccess α :=
  InPlace.check (result.mapError .refused)

/-- Changes what the lock guards. -/
def modifyContents (f : PageStore → PageStore) : StoreAccess Unit :=
  modify fun s => { s with contents := f s.contents }

/-- Changes one table. -/
def modifyTable (table : TableId) (f : Table → Table) : StoreAccess Unit :=
  modifyContents fun s => { s with tables := s.tables.modify table.number f }

/-! ## Adding tables and rows -/

/-- Adds a table without rows behind the others. -/
def createTable (name : String) (schema : Schema) : StoreAccess TableId := do
  let s ← locked
  modifyContents fun s => (s.createTable name schema).2
  return (s.createTable name schema).1

/-- Begins a page, for which memory is taken at once. If there cannot be as much, this breaks off, with
the lock still held. -/
def beginPage (table : TableId) : StoreAccess Unit := do
  let s ← get
  if PageStore.maxPageRows < s.contents.pageRows then
    set { s with poisoned := true }
    throw (.pageTooLarge s.contents.pageRows)
  modifyTable table Table.beginPage

/-- Puts a row behind those of the last page and answers its place. -/
def putLast (table : TableId) (row : Row) : StoreAccess RecordId := do
  let t ← answer ((← get).contents.table table)
  modifyTable table (·.putLast row)
  return t.lastPlace

/-- Adds a row to a table, if its types are those of the table, and answers its place. -/
def insert (table : TableId) (row : Row) : StoreAccess RecordId := do
  let s ← locked
  let t ← answer (s.table table)
  if ¬ row.schema.Agrees t.schema then
    throw (.refused (.mismatch row.schema t.name t.schema))
  if t.beginsPage s.pageRows then
    beginPage table
  putLast table row

/-- Adds rows one by one and stops at the first that is not taken; the rows before it stay. -/
def insertAll (table : TableId) : List Row → StoreAccess Unit
  | [] => return ()
  | row :: rows => do
    discard (insert table row)
    insertAll table rows

/-! ## Faults, and what can be asked -/

/-- Marks a page as unreadable, whether it exists or not. -/
def failPage (table : TableId) (page : Nat) : StoreAccess Unit := do
  let _ ← locked
  modifyContents (·.failPage table page)

/-- Makes every page readable again. -/
def clearFaults : StoreAccess Unit := do
  let _ ← locked
  modifyContents PageStore.clearFaults

/-- The first table of a name. -/
def tableId (name : String) : StoreAccess TableId := do
  answer ((← locked).tableId name)

/-- The name of a table. -/
def tableName (table : TableId) : StoreAccess String := do
  return (← answer ((← locked).table table)).name

/-- The columns of a table. -/
def tableSchema (table : TableId) : StoreAccess Schema := do
  return (← answer ((← locked).table table)).schema

/-- The number of pages of a table. -/
def numPages (table : TableId) : StoreAccess Nat := do
  answer ((← locked).numPages table)

/-- Reads a page and counts that, if it succeeds. -/
def fetchPage (table : TableId) (page : Nat) : StoreAccess (Array Row) := do
  let rows ← answer ((← locked).readPage table page)
  modifyContents (·.countReads [table])
  return rows

/-- How often a page of the table was handed out; behind a poisoned lock, nothing is known of that. -/
def pageReads (s : SharedStore) (table : TableId) : Nat :=
  if s.poisoned then 0 else s.contents.pageReads table

end SharedStore

end RowStream
