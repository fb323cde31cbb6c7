import RowStream.Text.Unprintable

/-!
# `RowStream.Text.Quoted` — text between quotation marks, as messages show it

A quoted text begins and ends with a quotation mark. Inside, the quotation mark, the backslash, tab,
line feed, carriage return and NUL have an escape of one letter, an unprintable character is
spelled out as its code point in hexadecimal between braces, and everything else stands for itself.

## Contents
- `Text.letterEscape?` — the characters with an escape of one letter.
- `Text.quoteChar`, `Text.quoted` — the written form of a character and of a text.
-/

namespace RowStream.Text

/-- The letter after the backslash, for the characters that have one. -/
def letterEscape? : Char → Option Char
  | '"' => some '"'
  | '\\' => some '\\'
  | '\t' => some 't'
  | '\n' => some 'n'
  | '\r' => some 'r'
  | '\x00' => some '0'
  | _ => none

/-- The written form of one character inside quotation marks. -/
def quoteChar (c : Char) : List Char :=
  match letterEscape? c with
  | some letter => ['\\', letter]
  | none =>
    if isUnprintable c then
      ['\\', 'u', '\x7b'] ++ Nat.toDigits 16 c.toNat ++ ['\x7d']
    else [c]

/-- The text between quotation marks. -/
def quoted (s : String) : String :=
  String.ofList ('"' :: s.toList.flatMap quoteChar ++ ['"'])

end RowStream.Text
