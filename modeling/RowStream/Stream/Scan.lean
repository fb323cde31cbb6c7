import RowStream.Stream.Cursor

/-!
# `RowStream.Stream.Scan` — the rows of a stored table as a stream

A scan notes at its start which pages the table has and reads each of them once, when the rows of
the pages before are used up. Its rows carry the columns of the table, named by the alias of the
scan.

## Contents
- `Scan`, `Scan.Position` — a table under an alias, and what is still to come of it.
- `Scan.make`, `Scan.ofTableName` — a closed scan, under a given alias or the name of the table.
- `Scan.repoint`, `Scan.reset` — pointing a scan at another table, in place and as what comes of it.
- Its calls as a `Cursor`: a page that cannot be read is tried again with the next call.
-/

namespace RowStream

/-- What is still to come of an open scan. -/
structure Scan.Position where
  /-- The rows that are read and not yet handed out. -/
  loaded : List Row
  /-- The pages that are not yet read. -/
  unread : List Nat
  deriving DecidableEq, Repr

/-- A stored table as a stream. -/
structure Scan where
  /-- The table. -/
  table : TableId
  /-- The name that stands before the names of the columns. -/
  qualifier : String
  /-- The columns under their full names. -/
  schema : Schema
  /-- What is still to come while the scan is open. -/
  position : Option Scan.Position := none
  deriving DecidableEq, Repr

namespace Scan

/-- The closed scan of a table under an alias. -/
def make (store : PageStore) (table : TableId) (qualifier : String) : Except StoreError Scan := do
  let t ← store.table table
  return { table, qualifier, schema := t.schema.qualify qualifier }

/-- The closed scan of a table under its own name. -/
def ofTableName (store : PageStore) (table : TableId) : Except StoreError Scan := do
  make store table (← store.table table).name

/-- The name of the table. -/
def tableName (store : PageStore) (s : Scan) : Except StoreError String :=
  return (← store.table s.table).name

/-- Stops the scan. -/
def close (s : Scan) : Scan := { s with position := none }

/-- Stops the scan that is at hand and points it at another table. -/
def repoint (store : PageStore) (table : TableId) (qualifier : String) :
    InPlace StoreError Scan Unit := do
  modify close
  let t ← InPlace.check (store.table table)
  modify fun s => { s with schema := t.schema.qualify qualifier }
  modify fun s => { s with table }
  modify fun s => { s with qualifier }

/-- What comes of pointing a scan at another table, and the scan after that. -/
def reset (store : PageStore) (s : Scan) (table : TableId) (qualifier : String) :
    Except StoreError Unit × Scan := (repoint store table qualifier).outcome s

/-- A scan that is pointed at a table is the new scan of it. If there is no such table, the scan is only
stopped. -/
theorem reset_eq (store : PageStore) (s : Scan) (table : TableId) (qualifier : String) :
    s.reset store table qualifier =
      match make store table qualifier with
      | .ok new => (.ok (), new)
      | .error e => (.error e, s.close) := by
  unfold reset repoint InPlace.outcome make
  simp only [EStateM.run_bind, EStateM.run_modify, InPlace.run_check]
  cases store.table table <;> rfl

/-- Starts with the pages that the table has now. -/
def start : Call Scan Unit := do
  let s ← Call.get
  if s.position.isSome then Call.fail (.usage (.alreadyOpen .scan))
  else
    let pages ← Call.numPages s.table
    Call.modify fun s => { s with position := some ⟨[], List.range pages⟩ }

/-- Reads pages until one has a row, and answers whether there is one. -/
def load (table : TableId) : List Nat → Call Scan Bool
  | [] => do
    Call.modify fun s => { s with position := some ⟨[], []⟩ }
    return false
  | page :: unread => do
    Call.modify fun s => { s with position := some ⟨[], page :: unread⟩ }
    let rows ← Call.readPage table page
    match rows.toList with
    | [] => load table unread
    | loaded =>
      Call.modify fun s => { s with position := some ⟨loaded, unread⟩ }
      return true

/-- Whether a row is left; reads a page only if no row is loaded. -/
def hasNext : Call Scan Bool := do
  let s ← Call.get
  match s.position with
  | none => Call.fail (.usage (.notOpen .scan))
  | some ⟨[], unread⟩ => load s.table unread
  | some _ => return true

/-- Takes the first loaded row, under the columns of the scan. -/
def take : Call Scan Row := do
  let s ← Call.get
  match s.position with
  | some ⟨row :: loaded, unread⟩ =>
    Call.modify fun s => { s with position := some ⟨loaded, unread⟩ }
    Call.ofExcept ((row.rebind s.schema).mapError .data)
  | _ => Call.fail .exhausted

/-- Takes the next row. -/
def next : Call Scan Row := do
  if ← hasNext then take else Call.fail .exhausted

/-- Starts again, with the pages that the table has now. -/
def rewind : Call Scan Unit := do
  let s ← Call.get
  if s.position.isNone then Call.fail (.usage (.notOpen .scan))
  else
    Call.modify close
    start

/-- The number of rows that a page holds; a page that does not exist holds none. -/
def pageSize (store : PageStore) (table : TableId) (page : Nat) : Nat :=
  match store.table table with
  | .ok t => (t.pages[page]?.map Array.size).getD 0
  | .error _ => 0

/-- The number of rows on pages that are not yet read. -/
def unreadRows (store : PageStore) (table : TableId) : List Nat → Nat
  | [] => 0
  | page :: unread => pageSize store table page + unreadRows store table unread

/-- The rows that are loaded, and those on the pages that are not yet read. -/
def remaining (store : PageStore) (s : Scan) : Nat :=
  match s.position with
  | none => 0
  | some p => p.loaded.length + unreadRows store s.table p.unread

/-! ## The bound on the rows to come -/

/-- A page that is read has as many rows as it holds. -/
theorem size_of_readPage {store : PageStore} {table : TableId} {page : Nat} {rows : Array Row}
    (h : store.readPage table page = .ok rows) : rows.size = pageSize store table page := by
  simp only [PageStore.readPage] at h
  split at h
  · cases h
  · simp only [pageSize]
    cases ht : store.table table with
    | error e => simp [ht, bind, Except.bind] at h
    | ok t =>
      simp only [ht, bind, Except.bind] at h
      cases hp : t.pages[page]? with
      | none => simp [hp, throw, throwThe, MonadExceptOf.throw] at h
      | some found =>
        simp only [hp, pure, Except.pure, Except.ok.injEq] at h
        simp [hp, h]

/-- Loading moves rows from unread pages to the loaded rows and adds none. -/
theorem remaining_load (store : PageStore) (table : TableId) (unread : List Nat) (s : Scan)
    (hs : s.table = table) :
    remaining store (load table unread store s).state
      ≤ unreadRows store table unread := by
  induction unread generalizing s with
  | nil => simp [load, bind, Call.bind, Call.modify, pure, Call.pure, remaining, unreadRows]
  | cons page unread ih =>
    simp only [load, bind, Call.bind, Call.modify, Call.readPage, unreadRows]
    cases hr : store.readPage table page with
    | error e => simp [remaining, unreadRows, hs]
    | ok rows =>
      have hsize := size_of_readPage hr
      cases hl : rows.toList with
      | nil =>
        have := ih { s with position := some ⟨[], page :: unread⟩ } hs
        simp only [hl]
        omega
      | cons row loaded =>
        have hlen : loaded.length + 1 = rows.size := by
          rw [← Array.length_toList, hl, List.length_cons]
        simp only [hl, Call.bind, Call.modify, pure, Call.pure, remaining, hs, List.length_cons]
        omega

/-- Looking for a row brings no new ones. -/
theorem remaining_hasNext (store : PageStore) (s : Scan) :
    remaining store (hasNext store s).state ≤ remaining store s := by
  simp only [hasNext, bind, Call.bind, Call.get]
  match hp : s.position with
  | none => simp [Call.fail, Call.ofExcept]
  | some ⟨[], unread⟩ =>
    have := remaining_load store s.table unread s rfl
    simpa [remaining, hp] using this
  | some ⟨row :: loaded, unread⟩ => simp [pure, Call.pure]

/-- A taken row is no longer to come. -/
theorem remaining_take {store : PageStore} {s : Scan} {row : Row}
    (h : (take store s).result = .ok row) :
    remaining store (take store s).state < remaining store s := by
  simp only [take, bind, Call.bind, Call.get] at h ⊢
  match hp : s.position with
  | none => simp [hp, Call.fail, Call.ofExcept] at h
  | some ⟨[], unread⟩ => simp [hp, Call.fail, Call.ofExcept] at h
  | some ⟨row :: loaded, unread⟩ =>
    simp [Call.bind, Call.modify, Call.ofExcept, remaining, hp]

/-- Every row lowers the bound. -/
theorem remaining_next {store : PageStore} {s : Scan} {row : Row}
    (h : (next store s).result = .ok row) :
    remaining store (next store s).state < remaining store s := by
  have hle := remaining_hasNext store s
  simp only [next, bind, Call.bind] at h ⊢
  cases hn : (hasNext store s).result with
  | error e => simp [hn] at h
  | ok more =>
    cases more with
    | false => simp [hn, Call.fail, Call.ofExcept] at h
    | true =>
      simp only [hn, if_true] at h ⊢
      exact Nat.lt_of_lt_of_le (remaining_take h) hle

instance : Cursor Scan where
  schema := schema
  start := start
  hasNext := hasNext
  next := next
  rewind := rewind
  close := close
  remaining := remaining
  remaining_hasNext := remaining_hasNext
  remaining_next _ _ _ h := remaining_next h

end Scan

end RowStream
