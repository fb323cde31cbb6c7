import RowStream.Error
import RowStream.Text.Quoted
import RowStream.Text.Truncate

/-!
# `RowStream.Value.Basic` — cell values

A cell holds an integer or a string. Values of one type are ordered as usual, strings by the code
points of their characters; across types there are two orders, one that leaves such pairs
incomparable and one that puts every integer before every string.

## Contents
- `Value`, `Value.ofString` — the type, and strings cut to what a cell holds.
- `Value.asInt`, `Value.asString` — the content, if it has the expected type.
- `Value.compare?`, `Value.order` — the partial and the total order.
- `Value.text`, `Value.debugText` — the texts that rows and messages show.
-/

namespace RowStream

/-- The content of a cell. -/
inductive Value where
  /-- A signed 64-bit integer. -/
  | int (i : Int64)
  /-- A string. -/
  | str (s : String)
  deriving DecidableEq, Hashable, Repr

namespace Value

/-- The string, cut to the length that a cell holds. -/
def ofString (s : String) : Value := .str (Text.truncate maxStringBytes s)

/-- The type of the value. -/
def type : Value → DataType
  | int _ => .int
  | str _ => .str

/-- The bytes that the text of a string takes; an integer has no text. -/
def textBytes : Value → Nat
  | int _ => 0
  | str s => s.utf8ByteSize

/-- The integer, if the value is one. -/
def asInt : Value → Except DataError Int64
  | int i => .ok i
  | str _ => .error (.typeMismatch .int .str)

/-- The string, if the value is one. -/
def asString : Value → Except DataError String
  | str s => .ok s
  | int _ => .error (.typeMismatch .str .int)

/-- The value with a string cut to the length that a cell holds. -/
def truncated : Value → Value
  | int i => int i
  | str s => ofString s

/-- The order of two values of one type. -/
def compare? : Value → Value → Option Ordering
  | int i, int j => some (compare i j)
  | str s, str t => some (compare s t)
  | _, _ => none

/-- The order of all values: integers come before strings. -/
def order : Value → Value → Ordering
  | int i, int j => compare i j
  | int _, str _ => .lt
  | str _, int _ => .gt
  | str s, str t => compare s t

/-- The content as a row shows it. -/
def text : Value → String
  | int i => toString i.toInt
  | str s => s

/-- The value with its type, as messages about the value show it. -/
def debugText : Value → String
  | int i => s!"Int({i.toInt})"
  | str s => "Str(" ++ Text.quoted s ++ ")"

@[simp] theorem type_truncated (v : Value) : v.truncated.type = v.type := by
  cases v <;> rfl

/-- Values of one type have an order, and it is the total one. -/
theorem compare?_eq_some_order {v w : Value} (h : v.type = w.type) :
    v.compare? w = some (v.order w) := by
  cases v <;> cases w <;> simp_all [type, compare?, order]

/-- Values of different types have no order. -/
theorem compare?_eq_none {v w : Value} (h : v.type ≠ w.type) : v.compare? w = none := by
  cases v <;> cases w <;> simp_all [type, compare?]

end Value

end RowStream
