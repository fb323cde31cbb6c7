import RowStream.Schema.Lookup
import RowStream.Value.Basic

/-!
# `RowStream.Row` — rows of cells under a schema

A row pairs a schema with its cells, any of which may be absent, and may remember where it is
stored. Operations that put a value into a cell check its type and cut strings to size; the place of
storage and the names of the columns play no part in whether two rows are equal.

## Contents
- `RecordId`, `Row` — the types.
- `Row.empty`, `Row.ofValues` — building rows.
- `Row.get?`, `Row.set`, `Row.rebind`, `Row.append` — reading, writing, taking another schema, and
  concatenation.
- `Row.Equal`, `Row.countDistinct` — equality of rows, and counting up to it.
-/

namespace RowStream

/-- The place of a stored row: a page of its table and a slot of that page. -/
structure RecordId where
  /-- The index of the page. -/
  page : Nat
  /-- The index within the page. -/
  slot : Nat
  deriving DecidableEq, Repr, Hashable

/-- A row of cells under a schema. -/
structure Row where
  /-- The columns. -/
  schema : Schema
  /-- The cells from left to right; an absent cell is `none`. -/
  cells : List (Option Value)
  /-- Where the row is stored, if it is. -/
  recordId : Option RecordId := none
  deriving DecidableEq, Repr

namespace Row

/-- The row whose cells are all absent. -/
def empty (schema : Schema) : Row := { schema, cells := List.replicate schema.width none }

/-- The number of cells. -/
def length (r : Row) : Nat := r.cells.length

/-- The value at `index`, or `none` if the cell is absent or does not exist. -/
def get? (r : Row) (index : Nat) : Option Value := r.cells[index]?.join

/-- Puts a value into the cell at `index`, cutting a string to size. -/
def set (r : Row) (index : Nat) (value : Value) : Except DataError Row := do
  let expected ← r.schema.fieldType index
  if value.type = expected then
    return { r with cells := r.cells.set index (some value.truncated) }
  else
    throw (.typeMismatch expected value.type)

/-- Puts each present value into the cell at its place, from `index` on. -/
def setFrom (r : Row) (index : Nat) : List (Option Value) → Except DataError Row
  | [] => return r
  | none :: values => r.setFrom (index + 1) values
  | some value :: values => do (← r.set index value).setFrom (index + 1) values

/-- The row with the given cells, where `none` leaves a cell absent. -/
def ofCells (schema : Schema) (cells : List (Option Value)) : Except DataError Row :=
  (empty schema).setFrom 0 cells

/-- The row with the given values, one for each column. -/
def ofValues (schema : Schema) (values : List Value) : Except DataError Row :=
  if values.length = schema.width then ofCells schema (values.map some)
  else .error (.schema (.wrongArity values.length schema.width))

/-- The row under another schema, which must agree with its own. -/
def rebind (r : Row) (schema : Schema) : Except DataError Row :=
  if schema.Agrees r.schema then .ok { r with schema }
  else .error (.schema (.cannotRebind r.schema schema))

/-- The cells of `l` followed by those of `r`, under the given schema and stored nowhere. -/
def append (l r : Row) (schema : Schema) : Row := { schema, cells := l.cells ++ r.cells }

/-- Two rows are equal when their cells are and their schemas agree. -/
def Equal (r s : Row) : Prop := r.cells = s.cells ∧ r.schema.Agrees s.schema

instance (r s : Row) : Decidable (r.Equal s) :=
  inferInstanceAs (Decidable (_ ∧ _))

/-- The number of rows that are pairwise not equal. -/
def countDistinct : List Row → Nat
  | [] => 0
  | r :: rows =>
    if rows.any (fun s => decide (r.Equal s)) then countDistinct rows else countDistinct rows + 1

/-- The cells separated by tabs. -/
def text (r : Row) : String :=
  "\t".intercalate (r.cells.map fun cell => (cell.map Value.text).getD "null")

end Row

end RowStream
