import RowStream.Json.Parse
import RowStream.Word

/-!
# `RowStream.Json.Form` — types that are written as JSON

A form reads more than it writes: the members of a record may come in any order and among others,
or as an array without their names, and a name may also be an object with a single member `null`.

## Contents
- `Form`, `Form.write`, `Form.read` — a type with its JSON values, and its text.
- `Json.word?`, `Json.int64?`, `Json.text?`, `Json.list?` — numbers, strings and lists.
- `Json.name?` — a value written as one of several names.
- `Json.record?` — the members of a record.
-/

namespace RowStream

/-- Values of type `α` are written as JSON. -/
class Form (α : Type) where
  /-- The JSON value that is written. -/
  toJson : α → Json
  /-- What a JSON value denotes, if anything. -/
  ofJson? : Json → Option α

namespace Form

/-- The compact JSON text of a value. -/
def write {α : Type} [Form α] (a : α) : String := (toJson a).text

/-- What a JSON text denotes, if anything. -/
def read (α : Type) [Form α] (text : String) : Option α := (Json.parse text).bind ofJson?

end Form

namespace Json

/-- A 64-bit word. -/
def word? : Json → Option Nat
  | integer i => if 0 ≤ i ∧ i < Word.limit then some i.toNat else none
  | _ => none

/-- The number that a word is written as. -/
def ofWord (n : Nat) : Json := integer n

/-- A signed 64-bit integer. -/
def int64? : Json → Option Int64
  | integer i =>
    if Int64.minValue.toInt ≤ i ∧ i ≤ Int64.maxValue.toInt then some (Int64.ofInt i) else none
  | _ => none

/-- The number that a signed 64-bit integer is written as. -/
def ofInt64 (i : Int64) : Json := integer i.toInt

/-- A string that denotes a text. -/
def text? : Json → Option String
  | string s => s
  | _ => none

/-- The string that a text is written as. -/
def ofText (s : String) : Json := string (some s)

/-- A list, written as an array. -/
def list? {α : Type} (read : Json → Option α) : Json → Option (List α)
  | array vs => vs.mapM read
  | _ => none

/-- One of several values, each of which has a name: its name as a string, or an object with this
name as its only member, which is `null`. -/
def name? {α : Type} (all : List α) (name : α → String) (v : Json) : Option α :=
  let find (s : String) := all.find? fun a => name a == s
  match v with
  | string (some s) => find s
  | object [(some s, null)] => find s
  | _ => none

/-- The members of a record, in the order of their names: an array of just as many values, or an
object, where a name may be missing, but not stand twice. Members of other names are left out, but
each name must denote a text. -/
def record? (names : List String) : Json → Option (List (Option Json))
  | array vs => if vs.length = names.length then some (vs.map some) else none
  | object ms =>
    if ms.all (fun m => m.1.isSome) then
      names.mapM fun name =>
        match ms.filter fun m => m.1 == some name with
        | [] => some none
        | [m] => some (some m.2)
        | _ => none
    else none
  | _ => none

end Json

end RowStream
