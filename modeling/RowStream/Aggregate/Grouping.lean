import RowStream.Aggregate.Accumulator
import RowStream.Row
import RowStream.Stream.Materialized

/-!
# `RowStream.Aggregate.Grouping` — rows folded into groups

A grouping takes rows one at a time. Each row belongs to the group of its key and changes the
accumulator of that group only; a row that is refused changes nothing. The groups are kept in the
order in which their first rows came; in which order they are listed is given.

## Contents
- `GroupKey` — what tells groups apart.
- `Grouping`, `Grouping.make` — the state, and the settings it refuses.
- `Grouping.key`, `Grouping.cell`, `Grouping.merge` — taking a row.
- `lookup_replace` — one group changes, the others stay.
- `Grouping.Listing`, `Grouping.listed` — an order of the groups.
- `Grouping.rows`, `Grouping.stream` — one row for each group.
-/

namespace RowStream

/-- What tells groups apart. -/
inductive GroupKey where
  /-- The only group there is without a group field. -/
  | ungrouped
  /-- The group of the rows whose group cell is absent. -/
  | absent
  /-- The group of the rows with this value. -/
  | value (v : Value)
  deriving DecidableEq, Repr

/-- Rows folded into groups. -/
structure Grouping where
  /-- The type of the aggregated column. -/
  inputType : DataType
  /-- The index and the type of the group column, if there is one. -/
  group : Option (Nat × DataType)
  /-- The index of the aggregated column. -/
  field : Nat
  /-- The function. -/
  fn : AggregateFn
  /-- The groups, in the order of their first rows. -/
  groups : List (GroupKey × Accumulator) := []
  deriving DecidableEq, Repr

namespace Grouping

/-- A grouping without groups. The function must take the type of its column, and a group column
needs both an index and a type. -/
def make (inputType : DataType) (groupField : Option Nat) (groupType : Option DataType)
    (field : Nat) (fn : AggregateFn) : Except StreamError Grouping :=
  if fn.supports inputType then
    match groupField, groupType with
    | some index, some type => .ok { inputType, group := some (index, type), field, fn }
    | none, none => .ok { inputType, group := none, field, fn }
    | _, _ => .error (.setting .halfGroup)
  else .error (.setting (.unsupported fn inputType))

/-- The columns of the answer: the group column, if there is one, and an integer, without names. -/
def schema (g : Grouping) : Schema :=
  Schema.ofTypes ((g.group.map Prod.snd).toList ++ [.int])

/-- The key of a row. -/
def key (g : Grouping) (row : Row) : Except StreamError GroupKey :=
  match g.group with
  | none => .ok .ungrouped
  | some (index, _) =>
    if row.length ≤ index then .error (.fieldOutOfRange .group index row.length)
    else
      match row.get? index with
      | some v => .ok (.value v)
      | none => .ok .absent

/-- The number that a value of a column stands for: an integer itself, a string none. -/
def numeric : DataType → Value → Except StreamError Int64
  | .int, v => v.asInt.mapError .data
  | .str, v => .error (.setting (.notNumeric v))

/-- What the function sees of a row: the number in its column, if it looks at it and the cell is
present. -/
def cell (g : Grouping) (row : Row) : Except StreamError (Option Int64) :=
  if g.fn = .count then .ok none
  else
    match row.get? g.field with
    | none => .ok none
    | some v => some <$> numeric g.inputType v

/-- The accumulator of a group; a new group begins with an empty one. -/
def accumulator (g : Grouping) (key : GroupKey) : Accumulator :=
  (g.groups.lookup key).getD (.empty g.fn)

/-- Puts an accumulator in the place of that of its key, or at the end if the key is new. -/
def replace (key : GroupKey) (acc : Accumulator) :
    List (GroupKey × Accumulator) → List (GroupKey × Accumulator)
  | [] => [(key, acc)]
  | (k, a) :: groups => if k = key then (k, acc) :: groups else (k, a) :: replace key acc groups

/-- A replaced accumulator is found under its key, and no other key is touched. -/
theorem lookup_replace (key k : GroupKey) (acc : Accumulator)
    (groups : List (GroupKey × Accumulator)) :
    (replace key acc groups).lookup k = if k = key then some acc else groups.lookup k := by
  induction groups with
  | nil => grind [replace]
  | cons group groups ih =>
    obtain ⟨k', a⟩ := group
    grind [replace]

/-- Takes one more row. -/
def merge (g : Grouping) (row : Row) : Except StreamError Grouping := do
  if row.length ≤ g.field then throw (.fieldOutOfRange .aggregate g.field row.length)
  let key ← g.key row
  let acc ← (g.accumulator key).merge (← g.cell row)
  return { g with groups := replace key acc g.groups }

/-- The number of groups. -/
def count (g : Grouping) : Nat := g.groups.length

/-- The grouping without its groups. -/
def clear (g : Grouping) : Grouping := { g with groups := [] }

/-- A way to list groups, whatever its order goes by. -/
class Listing where
  /-- The groups in the order in which they are listed. -/
  list : List (GroupKey × Accumulator) → List (GroupKey × Accumulator)
  /-- Each group is listed once. -/
  list_perm : ∀ groups, (list groups).Perm groups

/-- Where no other way is given, groups are listed in the order of their first rows. -/
instance firstCome : Listing where
  list := id
  list_perm := .refl

/-- The row of one group: its key, unless that is absent, and the answer, if there is one. -/
def row (schema : Schema) (key : GroupKey) (acc : Accumulator) :
    Except DataError Row :=
  let answer := acc.value.map Value.int
  Row.ofCells schema (match key with
    | .value v => [some v, answer]
    | .absent => [none, answer]
    | .ungrouped => [answer])

variable [Listing]

/-- The groups in the order in which they are listed. -/
def listed (g : Grouping) : List (GroupKey × Accumulator) := Listing.list g.groups

theorem listed_perm (g : Grouping) : g.listed.Perm g.groups := Listing.list_perm g.groups

/-- Exactly the groups are listed. -/
@[simp] theorem mem_listed {g : Grouping} {group : GroupKey × Accumulator} :
    group ∈ g.listed ↔ group ∈ g.groups := g.listed_perm.mem_iff

/-- One row for each group, under a schema with room for them. -/
def rows (g : Grouping) (schema : Schema) : Except StreamError (List Row) :=
  (g.listed.mapM fun (key, acc) => row schema key acc).mapError .data

/-- One row for each group as a closed stream. -/
def stream (g : Grouping) : Except StreamError Materialized :=
  return { schema := g.schema, rows := ← g.rows g.schema }

end Grouping

end RowStream
