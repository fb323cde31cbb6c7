import RowStream.Value.Basic

/-!
# `RowStream.Value.Comparison` — the six comparison operators

## Contents
- `Comparison` — the operators, with their symbols.
- `Comparison.holds` — what an operator says of an order.
- `Value.satisfies` — what an operator says of two values: values of different types satisfy none.
-/

namespace RowStream

/-- A comparison operator. -/
inductive Comparison where
  /-- Equality. -/
  | eq
  /-- Strictly less. -/
  | lt
  /-- Less or equal. -/
  | le
  /-- Strictly greater. -/
  | gt
  /-- Greater or equal. -/
  | ge
  /-- Inequality. -/
  | ne
  deriving DecidableEq, Repr

namespace Comparison

/-- Every operator. -/
def all : List Comparison := [eq, lt, le, gt, ge, ne]

/-- The symbol of the operator. -/
def symbol : Comparison → String
  | eq => "="
  | lt => "<"
  | le => "<="
  | gt => ">"
  | ge => ">="
  | ne => "<>"

/-- The operator that a symbol stands for. -/
def ofSymbol? (symbol : String) : Option Comparison :=
  all.find? fun op => op.symbol == symbol

/-- Whether two values in this order satisfy the operator. -/
def holds : Comparison → Ordering → Bool
  | eq, o => o == .eq
  | lt, o => o == .lt
  | le, o => o != .gt
  | gt, o => o == .gt
  | ge, o => o != .lt
  | ne, o => o != .eq

end Comparison

/-- Whether `v op w` holds. Values of different types satisfy no operator, not even inequality. -/
def Value.satisfies (op : Comparison) (v w : Value) : Bool :=
  (v.compare? w).any op.holds

end RowStream
