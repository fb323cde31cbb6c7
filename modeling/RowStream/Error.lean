import RowStream.Schema.Basic

/-!
# `RowStream.Error` — why data or a configuration is refused

Each cause is a constructor that carries what the message needs, and the wording stands in one
function per type.

## Contents
- `ConfigError` — a setting that cannot be used.
- `SchemaError` — a column or a shape that does not exist.
- `DataError` — the two above, and a value of the wrong type.
-/

namespace RowStream

/-- The largest buffer that one side of a join may ask for, in bytes: one gibibyte. -/
def maxJoinBufferBytes : Nat := 1024 * 1024 * 1024

/-- A setting that cannot be used. -/
inductive ConfigError where
  /-- The text, trimmed and in small letters, names no join strategy. -/
  | unknownStrategy (text : String)
  /-- The join buffer is empty. -/
  | emptyJoinBuffer
  /-- The join buffer is larger than `maxJoinBufferBytes`. -/
  | hugeJoinBuffer (bytes : Nat)
  /-- A page of a scan holds no row. -/
  | emptyScanPage
  deriving DecidableEq, Repr

namespace ConfigError

/-- The cause in words. -/
def text : ConfigError → String
  | unknownStrategy text => s!"unknown join strategy '{text}'"
  | emptyJoinBuffer => "join_buffer_bytes must be > 0"
  | hugeJoinBuffer bytes =>
    s!"join_buffer_bytes {bytes} exceeds the maximum of {maxJoinBufferBytes}"
  | emptyScanPage => "scan_page_tuples must be > 0"

end ConfigError

/-- A column or a shape that does not exist. -/
inductive SchemaError where
  /-- The schema has no column at this index. -/
  | noFieldAt (index : Nat)
  /-- The schema has no column of this name. -/
  | noFieldNamed (name : String)
  /-- A row was given another number of values than its schema has columns. -/
  | wrongArity (values fields : Nat)
  /-- A row cannot take a schema that does not agree with its own. -/
  | cannotRebind (old new : Schema)
  deriving DecidableEq, Repr

namespace SchemaError

/-- The cause in words. -/
def text : SchemaError → String
  | noFieldAt index => s!"no field at index {index}"
  | noFieldNamed name => s!"no field named '{name}'"
  | wrongArity values fields => s!"tuple has {values} values, schema has {fields} fields"
  | cannotRebind old new => s!"cannot rebind tuple of ({old.text}) to ({new.text})"

end SchemaError

/-- Why data or a configuration is refused. -/
inductive DataError where
  /-- A setting that cannot be used. -/
  | config (cause : ConfigError)
  /-- A column or a shape that does not exist. -/
  | schema (cause : SchemaError)
  /-- A value has another type than its place asks for. -/
  | typeMismatch (expected found : DataType)
  deriving DecidableEq, Repr

namespace DataError

/-- The message of the error. -/
def message : DataError → String
  | config cause => "Invalid configuration: " ++ cause.text
  | schema cause => "Schema error: " ++ cause.text
  | typeMismatch expected found =>
    s!"Type mismatch: expected {expected.name}, found {found.name}"

end DataError

end RowStream
