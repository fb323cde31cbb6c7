import RowStream.Config.Basic
import RowStream.Row
import RowStream.Store.Error
import RowStream.Word

/-!
# `RowStream.Store.Basic` — tables kept in pages

A store keeps each table as a list of pages of at most a fixed number of rows. Rows are only ever
added, at the end of the last page or on a new one behind it, and each row remembers its page and
its slot. Pages can be marked as unreadable, and the store counts the pages it hands out.

A page is given memory for all its rows when it is begun. The number of rows may be chosen so large
that there cannot be as much memory; then no page can be begun.

## Contents
- `Table`, `PageStore` — the types.
- `slotBytes`, `maxPageRows` — the memory for a row on a page, and for how many rows there can be some.
- `PageStore.Cramped` — tables that cannot be given another page.
- `PageStore.createTable`, `PageStore.insert`, `PageStore.insertAll` — adding tables and rows.
- `PageStore.readPage`, `PageStore.countReads`, `PageStore.fetchPage` — reading a page, counting
  reads, and both at once.
- `rows_append` — a row that is added comes last.
- `PageStore.failPage`, `PageStore.clearFaults` — marking pages as unreadable.
-/

namespace RowStream

/-- A stored table. -/
structure Table where
  /-- The name in the catalogue. -/
  name : String
  /-- The columns. -/
  schema : Schema
  /-- The rows, page by page. -/
  pages : Array (Array Row) := #[]
  /-- How often a page of the table was handed out. -/
  reads : Nat := 0
  deriving DecidableEq, Repr

namespace Table

/-- The place of the next row, if a page holds `pageRows` rows: behind the rows of the last page
while it has room, else the first slot of a new page. -/
def nextPlace (t : Table) (pageRows : Nat) : RecordId :=
  match t.pages.back? with
  | some page =>
    if page.size < pageRows then ⟨t.pages.size - 1, page.size⟩ else ⟨t.pages.size, 0⟩
  | none => ⟨0, 0⟩

/-- Whether the next row begins a page: there is none yet, or the last one is full. -/
def beginsPage (t : Table) (pageRows : Nat) : Bool :=
  match t.pages.back? with
  | some page => pageRows ≤ page.size
  | none => true

/-- The table with one more row, which remembers its place. -/
def append (t : Table) (pageRows : Nat) (row : Row) : Table :=
  let row := { row with recordId := some (t.nextPlace pageRows) }
  match t.pages.back? with
  | some page =>
    if page.size < pageRows then { t with pages := t.pages.pop.push (page.push row) }
    else { t with pages := t.pages.push #[row] }
  | none => { t with pages := #[#[row]] }

/-- The rows in the order in which they were added. -/
def rows (t : Table) : List Row := t.pages.toList.flatMap Array.toList

/-- A row that is added comes last and remembers its place. -/
theorem rows_append (t : Table) (pageRows : Nat) (row : Row) :
    (t.append pageRows row).rows =
      t.rows ++ [{ row with recordId := some (t.nextPlace pageRows) }] := by
  cases hback : t.pages.back? with
  | none =>
    have hempty : t.pages = #[] := Array.back?_eq_none_iff.1 hback
    simp [append, rows, hempty]
  | some page =>
    obtain ⟨pages, hpages⟩ := Array.back?_eq_some_iff.1 hback
    simp only [append, hback, rows]
    split <;> simp [hpages]

end Table

/-- Tables kept in pages. -/
structure PageStore where
  /-- The rows that a page has room for. -/
  pageRows : Nat
  /-- The tables; the identifier of a table is its index. -/
  tables : Array Table := #[]
  /-- The pages that are marked as unreadable. -/
  faults : List (TableId × Nat) := []
  deriving DecidableEq, Repr

namespace PageStore

/-- The bytes that a page sets aside for each of its rows: a word for the columns, three words for the
cells and three for the place. -/
def slotBytes : Nat := 7 * 8

/-- The largest number of rows for which a page can be given memory: no piece of memory takes more than
half of the addresses. -/
def maxPageRows : Nat := Word.top / 2 / slotBytes

/-- The store without tables, whose pages hold the given number of rows, but at least one. -/
def empty (pageRows : Nat) : PageStore := { pageRows := max pageRows 1 }

/-- The store without tables, with pages as the settings ask. -/
def ofConfig (config : Config) : PageStore := empty config.scanPageRows

/-- The table of an identifier. -/
def table (s : PageStore) (table : TableId) : Except StoreError Table :=
  match s.tables[table.number]? with
  | some t => .ok t
  | none => .error (.unknownTable table)

/-- The first table of a name. -/
def tableId (s : PageStore) (name : String) : Except StoreError TableId :=
  match s.tables.findIdx? fun t => t.name == name with
  | some index => .ok ⟨index⟩
  | none => .error (.noTableNamed name)

/-- Adds a table without rows behind the others. -/
def createTable (s : PageStore) (name : String) (schema : Schema) : TableId × PageStore :=
  (⟨s.tables.size⟩, { s with tables := s.tables.push { name, schema } })

/-- Whether the next row of a table begins a page for which there cannot be memory. -/
def Cramped (s : PageStore) (t : Table) : Prop :=
  t.beginsPage s.pageRows ∧ maxPageRows < s.pageRows

instance (s : PageStore) (t : Table) : Decidable (s.Cramped t) := inferInstanceAs (Decidable (_ ∧ _))

/-- Adds a row to a table, if its types are those of the table, and answers its place. If the row
begins a page, there must be memory for all rows of that. -/
def insert (s : PageStore) (table : TableId) (row : Row) :
    Except StoreFailure (RecordId × PageStore) := do
  let t ← (s.table table).mapError .refused
  if ¬ row.schema.Agrees t.schema then
    throw (.refused (.mismatch row.schema t.name t.schema))
  else if s.Cramped t then
    throw (.pageTooLarge s.pageRows)
  else
    let tables := s.tables.modify table.number fun t => t.append s.pageRows row
    return (t.nextPlace s.pageRows, { s with tables })

/-- Adds rows one by one and stops at the first that is not taken; the rows before it stay. -/
def insertAll (s : PageStore) (table : TableId) : List Row → Except StoreFailure Unit × PageStore
  | [] => (.ok (), s)
  | row :: rows =>
    match s.insert table row with
    | .ok (_, s) => s.insertAll table rows
    | .error e => (.error e, s)

/-- Marks a page as unreadable, whether it exists or not. -/
def failPage (s : PageStore) (table : TableId) (page : Nat) : PageStore :=
  { s with faults := (table, page) :: s.faults }

/-- Makes every page readable again. -/
def clearFaults (s : PageStore) : PageStore := { s with faults := [] }

/-- The number of pages of a table. -/
def numPages (s : PageStore) (table : TableId) : Except StoreError Nat :=
  return (← s.table table).pages.size

/-- The rows of a page, unless it is marked as unreadable or does not exist. -/
def readPage (s : PageStore) (table : TableId) (page : Nat) : Except StoreError (Array Row) :=
  if (table, page) ∈ s.faults then .error (.readFailed page table)
  else do
    let t ← s.table table
    match t.pages[page]? with
    | some rows => return rows
    | none => throw (.pageOutOfRange page t.name t.pages.size)

/-- Counts one read for each table of the list. -/
def countReads (s : PageStore) (reads : List TableId) : PageStore :=
  let count tables table := tables.modify table.number fun t => { t with reads := t.reads + 1 }
  { s with tables := reads.foldl count s.tables }

/-- Reads a page and counts that, if it succeeds. -/
def fetchPage (s : PageStore) (table : TableId) (page : Nat) :
    Except StoreError (Array Row × PageStore) :=
  return (← s.readPage table page, s.countReads [table])

/-- How often a page of the table was handed out. -/
def pageReads (s : PageStore) (table : TableId) : Nat :=
  (s.tables[table.number]?.map Table.reads).getD 0

end PageStore

end RowStream
