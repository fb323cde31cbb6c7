import RowStream.Error
import RowStream.Text.Blank

/-!
# `RowStream.Config.Strategy` — the ways to compute a join

## Contents
- `Strategy` — the four strategies, with their names.
- `Strategy.ofText` — reading a name or an alias, whatever its case and the blanks around it.
-/

namespace RowStream

/-- A way to compute a join. -/
inductive Strategy where
  /-- Every left row against a fresh pass over the right side. -/
  | nestedLoop
  /-- Blocks of left rows against blocks of right rows. -/
  | blockNestedLoop
  /-- Both sides sorted by the join value. -/
  | sortMerge
  /-- A table of the left rows, keyed by the join value. -/
  | hash
  deriving DecidableEq, Repr

namespace Strategy

/-- Every strategy. -/
def all : List Strategy := [nestedLoop, blockNestedLoop, sortMerge, hash]

/-- The name of the strategy. -/
def name : Strategy → String
  | nestedLoop => "nested_loop"
  | blockNestedLoop => "block_nested_loop"
  | sortMerge => "sort_merge"
  | hash => "hash"

/-- The shorter names of the strategy. -/
def aliases : Strategy → List String
  | nestedLoop => ["nl"]
  | blockNestedLoop => ["bnl"]
  | sortMerge => ["merge"]
  | hash => []

/-- Reads a name or an alias; blanks around it and the case of its ASCII letters do not matter. -/
def ofText (s : String) : Except DataError Strategy :=
  let key := Text.lowerAscii (Text.trim s)
  match all.find? fun strategy => (strategy.name :: strategy.aliases).contains key with
  | some strategy => .ok strategy
  | none => .error (.config (.unknownStrategy key))

end Strategy

end RowStream
