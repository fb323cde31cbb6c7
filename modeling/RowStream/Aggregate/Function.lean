import RowStream.Schema.Basic

/-!
# `RowStream.Aggregate.Function` — the aggregate functions

## Contents
- `AggregateFn` — the five functions, with their names.
- `AggregateFn.supports` — which types of columns a function takes.
-/

namespace RowStream

/-- A function from the cells of a group to one integer. -/
inductive AggregateFn where
  /-- The number of rows, whether their cells are present or not. -/
  | count
  /-- The sum of the present cells. -/
  | sum
  /-- The mean of the present cells, truncated toward zero. -/
  | avg
  /-- The least present cell. -/
  | min
  /-- The greatest present cell. -/
  | max
  deriving DecidableEq, Repr

namespace AggregateFn

/-- Every function. -/
def all : List AggregateFn := [count, sum, avg, min, max]

/-- The name of the function. -/
def name : AggregateFn → String
  | count => "count"
  | sum => "sum"
  | avg => "avg"
  | min => "min"
  | max => "max"

/-- The function that a name stands for. -/
def ofName? (name : String) : Option AggregateFn :=
  all.find? fun fn => fn.name == name

/-- Integers take every function; strings can only be counted. -/
def supports (fn : AggregateFn) : DataType → Bool
  | .int => true
  | .str => fn == count

end AggregateFn

end RowStream
