/-!
# `RowStream.Json.Basic` — JSON values and their compact text

## Contents
- `Json` — the values, with the members of an object in their order and with repetitions.
- `Json.escape`, `Json.quote` — the characters of a string between quotation marks.
- `Json.render`, `Json.text` — the compact text, without blanks.
-/

namespace RowStream

/-- A JSON value. A string is `none` if it has half of a surrogate pair and so denotes no text. -/
inductive Json where
  /-- The value `null`. -/
  | null
  /-- A truth value. -/
  | bool (b : Bool)
  /-- A number without a fraction and an exponent, but not a negative zero. -/
  | integer (i : Int)
  /-- Any other number, as it is written. -/
  | real (literal : List Char)
  /-- A string. -/
  | string (s : Option String)
  /-- An array. -/
  | array (elements : List Json)
  /-- An object. -/
  | object (members : List (Option String × Json))
  deriving Repr

namespace Json

/-- The letter after the backslash, for the characters that are written with one. -/
def escapeLetter? : Char → Option Char
  | '"' => some '"'
  | '\\' => some '\\'
  | '\x08' => some 'b'
  | '\x0c' => some 'f'
  | '\n' => some 'n'
  | '\r' => some 'r'
  | '\t' => some 't'
  | _ => none

/-- The written form of one character: a letter after a backslash, four hexadecimal digits for the
other control characters, and the character itself for the rest. -/
def escape (c : Char) : List Char :=
  match escapeLetter? c with
  | some letter => ['\\', letter]
  | none =>
    if c.toNat < 0x20 then
      ['\\', 'u', '0', '0', Nat.digitChar (c.toNat / 16), Nat.digitChar (c.toNat % 16)]
    else [c]

/-- The written form of a string. One without a text is written as half of a surrogate pair. -/
def quote : Option String → List Char
  | some s => '"' :: s.toList.flatMap escape ++ ['"']
  | none => ['"', '\\', 'u', 'd', '8', '0', '0', '"']

mutual

/-- The compact text of a value. -/
def render : Json → List Char
  | null => ['n', 'u', 'l', 'l']
  | bool true => ['t', 'r', 'u', 'e']
  | bool false => ['f', 'a', 'l', 's', 'e']
  | integer i => (toString i).toList
  | real literal => literal
  | string s => quote s
  | array [] => ['[', ']']
  | array (v :: vs) => '[' :: render v ++ renderElements vs
  | object [] => ['\x7b', '\x7d']
  | object ((k, v) :: ms) => '\x7b' :: quote k ++ ':' :: render v ++ renderMembers ms

/-- The elements after the first, and the closing bracket. -/
def renderElements : List Json → List Char
  | [] => [']']
  | v :: vs => ',' :: render v ++ renderElements vs

/-- The members after the first, and the closing brace. -/
def renderMembers : List (Option String × Json) → List Char
  | [] => ['\x7d']
  | (k, v) :: ms => ',' :: quote k ++ ':' :: render v ++ renderMembers ms

end

/-- The compact text of a value. -/
def text (v : Json) : String := String.ofList (render v)

end Json

end RowStream
