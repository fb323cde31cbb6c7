/-!
# `RowStream.Schema.Basic` — column types, fields and schemas

A schema lists the columns of a row. Two schemas agree when they list the same types in the same
order; names describe columns but never decide whether rows fit.

## Contents
- `DataType`, `Field`, `Schema` — the types.
- `Schema.ofTypes`, `Schema.named` — building schemas.
- `Schema.Agrees` — the same types in the same order.
- `Schema.byteSize`, `Schema.append`, `Schema.qualify`, `Schema.text` — width, concatenation,
  prefixed names, and the text that messages show.
-/

namespace RowStream

/-- The longest string that a cell holds, in UTF-8 bytes. -/
def maxStringBytes : Nat := 128

/-- The type of a column. -/
inductive DataType where
  /-- Signed 64-bit integers. -/
  | int
  /-- Strings of at most `maxStringBytes` bytes. -/
  | str
  deriving DecidableEq, Repr, Hashable

namespace DataType

/-- Every column type. -/
def all : List DataType := [int, str]

/-- The bytes that a cell of the type occupies: a string cell stores its length beside its bytes. -/
def byteWidth : DataType → Nat
  | int => 8
  | str => 4 + maxStringBytes

/-- The name that messages show. -/
def name : DataType → String
  | int => "INT"
  | str => "STRING"

end DataType

/-- A column: its type, and its name if it has one. -/
structure Field where
  /-- The name, if the column has one. -/
  name : Option String
  /-- The type of the cells. -/
  type : DataType
  deriving DecidableEq, Repr

namespace Field

/-- The column without a name. -/
def unnamed (type : DataType) : Field := ⟨none, type⟩

/-- The name, with a fixed word in place of an absent one. -/
def shownName (f : Field) : String := f.name.getD "null"

/-- The type followed by the name in parentheses. -/
def text (f : Field) : String := f.type.name ++ "(" ++ f.shownName ++ ")"

end Field

/-- The columns of a row, from left to right. -/
structure Schema where
  /-- The columns. -/
  fields : List Field
  deriving DecidableEq, Repr

namespace Schema

/-- The schema of unnamed columns of the given types. -/
def ofTypes (types : List DataType) : Schema := ⟨types.map Field.unnamed⟩

/-- Columns of the given types and names; what the longer list has beyond the shorter is left out. -/
def named (types : List DataType) (names : List String) : Schema :=
  ⟨types.zipWith (fun type name => ⟨some name, type⟩) names⟩

/-- The number of columns. -/
def width (s : Schema) : Nat := s.fields.length

/-- The types of the columns. -/
def types (s : Schema) : List DataType := s.fields.map (·.type)

/-- Two schemas agree when they have the same types in the same order. -/
def Agrees (s t : Schema) : Prop := s.types = t.types

instance (s t : Schema) : Decidable (s.Agrees t) :=
  inferInstanceAs (Decidable (s.types = t.types))

/-- The bytes that a row occupies. -/
def byteSize (s : Schema) : Nat := s.types.foldr (fun type bytes => type.byteWidth + bytes) 0

/-- A row with a column has a width. -/
theorem byteSize_pos {s : Schema} {type : DataType} (h : type ∈ s.types) : 0 < s.byteSize := by
  have hwidth : 0 < type.byteWidth := by cases type <;> decide
  unfold byteSize
  generalize s.types = types at h
  induction types with
  | nil => cases h
  | cons first types ih =>
    rw [List.foldr_cons]
    rcases List.mem_cons.1 h with rfl | h
    · exact Nat.lt_of_lt_of_le hwidth (Nat.le_add_right _ _)
    · exact Nat.lt_of_lt_of_le (ih h) (Nat.le_add_left _ _)

/-- The columns of `s` followed by those of `t`. -/
def append (s t : Schema) : Schema := ⟨s.fields ++ t.fields⟩

/-- The same columns, each named by `qualifier`, a dot and its own name. -/
def qualify (s : Schema) (qualifier : String) : Schema :=
  ⟨s.fields.map fun f => ⟨some (qualifier ++ "." ++ f.shownName), f.type⟩⟩

/-- The columns as messages show them, separated by commas. -/
def text (s : Schema) : String := ", ".intercalate (s.fields.map Field.text)

@[simp] theorem Agrees.refl (s : Schema) : s.Agrees s := rfl

theorem Agrees.symm {s t : Schema} (h : s.Agrees t) : t.Agrees s := Eq.symm h

theorem Agrees.trans {s t u : Schema} (h : s.Agrees t) (h' : t.Agrees u) : s.Agrees u :=
  Eq.trans h h'

@[simp] theorem types_append (s t : Schema) : (s.append t).types = s.types ++ t.types := by
  simp [append, types]

/-- Qualified names leave the types alone. -/
theorem qualify_agrees (s : Schema) (qualifier : String) : (s.qualify qualifier).Agrees s := by
  simp [Agrees, qualify, types, Function.comp_def]

@[simp] theorem length_types (s : Schema) : s.types.length = s.width := by simp [types, width]

end Schema

end RowStream
