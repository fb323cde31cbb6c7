import RowStream.Error

/-!
# `RowStream.Schema.Lookup` — finding a column

## Contents
- `Schema.fieldType`, `Schema.fieldName` — the type and the name of the column at an index.
- `Schema.indexOf` — the first column of a name.
- `Schema.fieldType_eq_ok_iff` — a column has a type exactly when its index is in range.
-/

namespace RowStream.Schema

/-- The type of the column at `index`. -/
def fieldType (s : Schema) (index : Nat) : Except DataError DataType :=
  match s.fields[index]? with
  | some f => .ok f.type
  | none => .error (.schema (.noFieldAt index))

/-- The name, if any, of the column at `index`. -/
def fieldName (s : Schema) (index : Nat) : Except DataError (Option String) :=
  match s.fields[index]? with
  | some f => .ok f.name
  | none => .error (.schema (.noFieldAt index))

/-- The index of the first column called `name`. -/
def indexOf (s : Schema) (name : String) : Except DataError Nat :=
  match s.fields.findIdx? (fun f => f.name == some name) with
  | some index => .ok index
  | none => .error (.schema (.noFieldNamed name))

/-- The name of the column at `index`, or `none` if it has no name or does not exist. -/
def nameAt? (s : Schema) (index : Nat) : Option String :=
  s.fields[index]?.bind (·.name)

/-- The type of a column is what `types` lists at its index. -/
theorem fieldType_eq_ok_iff {s : Schema} {index : Nat} {type : DataType} :
    s.fieldType index = .ok type ↔ s.types[index]? = some type := by
  simp only [fieldType, types, List.getElem?_map]
  cases s.fields[index]? <;> simp

end RowStream.Schema
