import RowStream.Ident
import RowStream.Schema.Basic

/-!
# `RowStream.Store.Error` — why a store refuses an access

## Contents
- `StoreError` — unknown tables, rows that do not fit, and pages that cannot be read.
- `StoreError.message` — the message of each.
- `StoreFailure` — an access that is refused, and one that breaks off.
-/

namespace RowStream

/-- Why a store refuses an access. -/
inductive StoreError where
  /-- No table has this name. -/
  | noTableNamed (name : String)
  /-- No table has this identifier. -/
  | unknownTable (table : TableId)
  /-- The types of a row differ from those of the table. -/
  | mismatch (row : Schema) (table : String) (schema : Schema)
  /-- The page is marked as unreadable. -/
  | readFailed (page : Nat) (table : TableId)
  /-- The table has no such page. -/
  | pageOutOfRange (page : Nat) (table : String) (pages : Nat)
  /-- An access before this one broke off while it held the lock of the store. -/
  | lockPoisoned
  deriving DecidableEq, Repr

namespace StoreError

/-- The message of the error. -/
def message : StoreError → String
  | noTableNamed name => s!"no table named '{name}'"
  | unknownTable table => s!"unknown table {table.text}"
  | mismatch row table schema =>
    s!"tuple ({row.text}) does not match table '{table}' ({schema.text})"
  | readFailed page table => s!"read of page {page} of {table.text} failed"
  | pageOutOfRange page table pages =>
    s!"page {page} out of range for table '{table}' ({pages} pages)"
  | lockPoisoned => "page store lock poisoned"

end StoreError

/-- How an access to a store fails. -/
inductive StoreFailure where
  /-- It answers why it is refused. -/
  | refused (cause : StoreError)
  /-- It breaks off without an answer: there cannot be memory for pages of so many rows. -/
  | pageTooLarge (pageRows : Nat)
  deriving DecidableEq, Repr

/-- Whether the access broke off, and left the lock that it held unusable. -/
def StoreFailure.breaksOff : StoreFailure → Bool
  | refused _ => false
  | pageTooLarge _ => true

end RowStream
