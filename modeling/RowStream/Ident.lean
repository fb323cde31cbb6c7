/-!
# `RowStream.Ident` — identifiers of tables and transactions

## Contents
- `TableId`, `TxnId` — numbers that must not be mixed up, with the text that messages show.
-/

namespace RowStream

/-- The number of a table in its store. -/
structure TableId where
  /-- The number. -/
  number : Nat
  deriving DecidableEq, Repr, Hashable, Ord

/-- The identifier as messages show it. -/
def TableId.text (t : TableId) : String := s!"TableId({t.number})"

/-- The number of a transaction. -/
structure TxnId where
  /-- The number. -/
  number : Nat
  deriving DecidableEq, Repr, Hashable, Ord

/-- The identifier as messages show it. -/
def TxnId.text (t : TxnId) : String := s!"TxnId({t.number})"

end RowStream
