import RowStream.Aggregate.Function
import RowStream.Error
import RowStream.Memory.Error
import RowStream.Predicate
import RowStream.Store.Error

/-!
# `RowStream.Stream.Error` — why a call on a stream fails

## Contents
- `StreamKind` — the streams that can be opened, as messages call them.
- `UsageError` — calls in the wrong state, and the wrong number of children.
- `SettingError` — things that an operator cannot compute.
- `StreamError` — every cause, with its message.
- `StreamError.ofMemory` — a row too wide for its block is a wrong setting, all else a shortage.
-/

namespace RowStream

/-- The kinds of streams that are opened and closed. -/
inductive StreamKind where
  /-- Rows that are at hand. -/
  | materialized
  /-- The rows of a stored table. -/
  | scan
  /-- The pairs of rows that satisfy a condition. -/
  | join
  /-- One row for each group. -/
  | aggregate
  deriving DecidableEq, Repr

/-- The kind as messages call it. -/
def StreamKind.name : StreamKind → String
  | materialized => "materialized stream"
  | scan => "seq scan"
  | join => "join"
  | aggregate => "aggregate"

/-- A call in the wrong state, or with the wrong number of children. -/
inductive UsageError where
  /-- The stream has to be opened first. -/
  | notOpen (kind : StreamKind)
  /-- The stream has to be closed first. -/
  | alreadyOpen (kind : StreamKind)
  /-- The children of a join are replaced only while it is closed. -/
  | rebindOpenJoin
  /-- The child of an aggregate is replaced only while it is closed. -/
  | rebindOpenAggregate
  /-- A join has two children. -/
  | joinChildren (count : Nat)
  /-- An aggregate has one child. -/
  | aggregateChildren (count : Nat)
  deriving DecidableEq, Repr

/-- The cause in words. -/
def UsageError.text : UsageError → String
  | notOpen kind => s!"{kind.name} is not open"
  | alreadyOpen kind => s!"{kind.name} is already open"
  | rebindOpenJoin => "cannot rebind children of an open join"
  | rebindOpenAggregate => "cannot rebind the child of an open aggregate"
  | joinChildren count => s!"join takes 2 children, got {count}"
  | aggregateChildren count => s!"aggregate takes 1 child, got {count}"

/-- Something that an operator cannot compute. -/
inductive SettingError where
  /-- A hash join finds equal values only. -/
  | hashNeedsEquality (op : Comparison)
  /-- One row is wider than the block of a join. -/
  | rowTooWide (tag : String) (block row : Nat)
  /-- The function does not take columns of this type. -/
  | unsupported (fn : AggregateFn) (type : DataType)
  /-- A group has an index without a type, or a type without an index. -/
  | halfGroup
  /-- The value stands for no number. -/
  | notNumeric (value : Value)
  deriving DecidableEq, Repr

/-- The cause in words. -/
def SettingError.text : SettingError → String
  | hashNeedsEquality op =>
    s!"hash join only supports equality predicates, got '{op.symbol}'"
  | rowTooWide tag block row => (MemoryError.rowTooWide tag block row).message
  | unsupported fn type => s!"{fn.name} is not supported over {type.name} columns"
  | halfGroup => "group field and group type must be given together"
  | notNumeric value => s!"string value {value.debugText} has no numeric interpretation"

/-- What a field is to an aggregate. -/
inductive FieldRole where
  /-- The cells that the function takes. -/
  | aggregate
  /-- The cells that tell the groups apart. -/
  | group
  deriving DecidableEq, Repr

/-- The role as messages call it. -/
def FieldRole.name : FieldRole → String
  | aggregate => "aggregate"
  | group => "group"

/-- Why a call on a stream fails. -/
inductive StreamError where
  /-- The call does not fit the state of the stream. -/
  | usage (cause : UsageError)
  /-- There is no row left. -/
  | exhausted
  /-- The operator cannot compute this. -/
  | setting (cause : SettingError)
  /-- Data or a configuration is refused. -/
  | data (cause : DataError)
  /-- A condition names a column that its child does not have. -/
  | predicateField (predicate : Predicate) (index : Nat)
  /-- A row has no cell at a field of the aggregate. -/
  | fieldOutOfRange (role : FieldRole) (index cells : Nat)
  /-- The store refuses an access. -/
  | storage (cause : StoreError)
  /-- A sum and the next value do not add up to a 64-bit integer. -/
  | sumOverflow (sum value : Int64)
  /-- There is not enough memory. -/
  | memory (cause : MemoryError)
  deriving DecidableEq, Repr

namespace StreamError

/-- The error for a refused request for memory. -/
def ofMemory : MemoryError → StreamError
  | .rowTooWide tag block row => setting (.rowTooWide tag block row)
  | cause => memory cause

/-- The message of the error. -/
def message : StreamError → String
  | usage cause => "usage error: " ++ cause.text
  | exhausted => "no such element: stream is exhausted"
  | setting cause => "configuration error: " ++ cause.text
  | data cause => "schema error: " ++ cause.message
  | predicateField predicate index =>
    s!"schema error: Schema error: join predicate {predicate.text}: " ++
      (DataError.schema (.noFieldAt index)).message
  | fieldOutOfRange role index cells =>
    s!"schema error: Schema error: {role.name} field {index} out of range " ++
      s!"for a tuple of {cells} fields"
  | storage cause => "storage error: " ++ cause.message
  | sumOverflow sum value => s!"arithmetic overflow: sum {sum.toInt} + {value.toInt}"
  | memory cause => "memory budget error: " ++ cause.message

end StreamError

end RowStream
