import RowStream.Aggregate.Function
import RowStream.Config.Basic
import RowStream.Ident
import RowStream.Json.Form
import RowStream.Predicate

/-!
# `RowStream.Json.Forms` — the JSON forms of data and settings

## Contents
- Names: `DataType`, `Comparison`, `Strategy`, `AggregateFn`.
- Numbers: `TableId`, `TxnId`.
- Records: `Field`, `Schema`, `RecordId`, `Config`, `Predicate`.
- `Value`, as an object with one member that tells its type.
-/

namespace RowStream

/-! ## Names -/

/-- The name of a type in JSON. -/
def DataType.jsonName : DataType → String
  | int => "Int"
  | str => "Str"

instance : Form DataType where
  toJson type := .ofText type.jsonName
  ofJson? := Json.name? DataType.all DataType.jsonName

/-- The name of an operator in JSON. -/
def Comparison.jsonName : Comparison → String
  | eq => "Equals"
  | lt => "LessThan"
  | le => "LessThanOrEq"
  | gt => "GreaterThan"
  | ge => "GreaterThanOrEq"
  | ne => "NotEquals"

instance : Form Comparison where
  toJson op := .ofText op.jsonName
  ofJson? := Json.name? Comparison.all Comparison.jsonName

instance : Form Strategy where
  toJson strategy := .ofText strategy.name
  ofJson? := Json.name? Strategy.all Strategy.name

instance : Form AggregateFn where
  toJson fn := .ofText fn.name
  ofJson? := Json.name? AggregateFn.all AggregateFn.name

/-! ## Numbers -/

instance : Form TableId where
  toJson table := .ofWord table.number
  ofJson? v := v.word?.map TableId.mk

instance : Form TxnId where
  toJson txn := .ofWord txn.number
  ofJson? v := v.word?.map TxnId.mk

/-! ## Values -/

instance : Form Value where
  toJson
    | .int i => .object [(some "Int", .ofInt64 i)]
    | .str s => .object [(some "Str", .ofText s)]
  ofJson?
    | .object [(some "Int", v)] => v.int64?.map Value.int
    | .object [(some "Str", v)] => v.text?.map Value.str
    | _ => none

/-! ## Records -/

/-- A name that may be `null`. -/
def Json.optionalText? : Json → Option (Option String)
  | .null => some none
  | v => v.text?.map some

/-- The name of a field may be missing. -/
instance : Form Field where
  toJson f := .object [
    (some "name", (f.name.map Json.ofText).getD .null),
    (some "ty", Form.toJson f.type)]
  ofJson? v := do
    match ← v.record? ["name", "ty"] with
    | [name, some type] => return ⟨← (name.getD .null).optionalText?, ← Form.ofJson? type⟩
    | _ => none

instance : Form Schema where
  toJson s := .object [(some "fields", .array (s.fields.map Form.toJson))]
  ofJson? v := do
    match ← v.record? ["fields"] with
    | [some fields] => return ⟨← fields.list? Form.ofJson?⟩
    | _ => none

instance : Form RecordId where
  toJson r := .object [(some "page", .ofWord r.page), (some "slot", .ofWord r.slot)]
  ofJson? v := do
    match ← v.record? ["page", "slot"] with
    | [some page, some slot] => return ⟨← page.word?, ← slot.word?⟩
    | _ => none

instance : Form Config where
  toJson c := .object [
    (some "join_buffer_bytes", .ofWord c.joinBufferBytes),
    (some "join_strategy", Form.toJson c.strategy),
    (some "scan_page_tuples", .ofWord c.scanPageRows)]
  ofJson? v := do
    match ← v.record? ["join_buffer_bytes", "join_strategy", "scan_page_tuples"] with
    | [some bytes, some strategy, some rows] =>
      return ⟨← bytes.word?, ← Form.ofJson? strategy, ← rows.word?⟩
    | _ => none

instance : Form Predicate where
  toJson p := .object [
    (some "left_field", .ofWord p.leftField),
    (some "op", Form.toJson p.op),
    (some "right_field", .ofWord p.rightField)]
  ofJson? v := do
    match ← v.record? ["left_field", "op", "right_field"] with
    | [some left, some op, some right] =>
      return ⟨← left.word?, ← Form.ofJson? op, ← right.word?⟩
    | _ => none

end RowStream
