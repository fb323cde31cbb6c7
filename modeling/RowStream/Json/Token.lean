import RowStream.Json.Basic

/-!
# `RowStream.Json.Token` — JSON text as tokens

The text is split into brackets, braces, colons, commas and the values that have no parts. A text
that is no sequence of tokens is refused as a whole.

## Contents
- `Json.Token` — the tokens.
- `Json.codeUnits`, `Json.joinUnits` — the inside of a string as numbers, and their text.
- `Json.number` — a number at the front of a text.
- `Json.token`, `Json.tokens` — the first token, and all of them.
- `length_of_token` — a token takes at least one character, so that the text is used up.
-/

namespace RowStream.Json

/-- A token of JSON text. -/
inductive Token where
  /-- An opening bracket. -/
  | openArray
  /-- A closing bracket. -/
  | closeArray
  /-- An opening brace. -/
  | openObject
  /-- A closing brace. -/
  | closeObject
  /-- A colon. -/
  | colon
  /-- A comma. -/
  | comma
  /-- A value without parts. -/
  | value (v : Json)

/-- The characters that may stand between tokens. -/
def isBlank (c : Char) : Bool := c == ' ' || c == '\t' || c == '\n' || c == '\r'

/-! ## Strings -/

/-- The value of a hexadecimal digit. -/
def hexDigit? (c : Char) : Option Nat :=
  if c.isDigit then some (c.toNat - '0'.toNat)
  else if 'a' ≤ c ∧ c ≤ 'f' then some (c.toNat - 'a'.toNat + 10)
  else if 'A' ≤ c ∧ c ≤ 'F' then some (c.toNat - 'A'.toNat + 10)
  else none

/-- The value of four hexadecimal digits. -/
def hexUnit? (a b c d : Char) : Option Nat := do
  return 4096 * (← hexDigit? a) + 256 * (← hexDigit? b) + 16 * (← hexDigit? c) + (← hexDigit? d)

/-- The character that a letter after a backslash stands for. -/
def unescape? : Char → Option Char
  | '"' => some '"'
  | '\\' => some '\\'
  | '/' => some '/'
  | 'b' => some '\x08'
  | 'f' => some '\x0c'
  | 'n' => some '\n'
  | 'r' => some '\r'
  | 't' => some '\t'
  | _ => none

/-- The inside of a string up to its closing quotation mark, and what follows. A character stands
for its code point, and an escape of four digits for their value. -/
def codeUnits : List Char → Option (List Nat × List Char)
  | [] => none
  | '"' :: cs => some ([], cs)
  | '\\' :: 'u' :: a :: b :: c :: d :: cs => do
    let unit ← hexUnit? a b c d
    let (units, cs) ← codeUnits cs
    return (unit :: units, cs)
  | '\\' :: letter :: cs => do
    let c ← unescape? letter
    let (units, cs) ← codeUnits cs
    return (c.toNat :: units, cs)
  | c :: cs =>
    if c.toNat < 0x20 ∨ c = '\\' then none
    else do
      let (units, cs) ← codeUnits cs
      return (c.toNat :: units, cs)

/-- Whether the number is the first half of a surrogate pair. -/
def isHighHalf (n : Nat) : Bool := 0xD800 ≤ n && n < 0xDC00

/-- Whether the number is the second half of a surrogate pair. -/
def isLowHalf (n : Nat) : Bool := 0xDC00 ≤ n && n < 0xE000

/-- The text of the numbers, where two halves of a surrogate pair are one character; a half on its
own has no text. -/
def joinUnits : List Nat → Option (List Char)
  | [] => some []
  | [n] => if isHighHalf n || isLowHalf n then none else some [Char.ofNat n]
  | n :: m :: units =>
    if isHighHalf n then
      if isLowHalf m then
        (joinUnits units).map (Char.ofNat (0x10000 + (n - 0xD800) * 0x400 + (m - 0xDC00)) :: ·)
      else none
    else if isLowHalf n then none
    else (joinUnits (m :: units)).map (Char.ofNat n :: ·)

/-! ## Numbers -/

/-- One or more digits at the front, and what follows. -/
def digits (cs : List Char) : Option (List Char × List Char) :=
  let ds := cs.takeWhile Char.isDigit
  if ds.isEmpty then none else some (ds, cs.dropWhile Char.isDigit)

/-- A fraction at the front, if there is a point, and what follows. -/
def fraction : List Char → Option (List Char × List Char)
  | '.' :: cs => do
    let (ds, cs) ← digits cs
    return ('.' :: ds, cs)
  | cs => some ([], cs)

/-- An exponent at the front, if there is a letter for it, and what follows. -/
def exponent : List Char → Option (List Char × List Char)
  | [] => some ([], [])
  | e :: cs =>
    if e = 'e' ∨ e = 'E' then do
      let (sign, cs) := match cs with
        | '+' :: cs => (['+'], cs)
        | '-' :: cs => (['-'], cs)
        | cs => ([], cs)
      let (ds, cs) ← digits cs
      return (e :: sign ++ ds, cs)
    else some ([], e :: cs)

/-- The natural number that the digits denote. -/
def digitsValue (ds : List Char) : Nat :=
  ds.foldl (fun n c => 10 * n + (c.toNat - '0'.toNat)) 0

/-- A number without its sign at the front, and what follows. Only zero begins with a zero. -/
def unsigned (cs : List Char) : Option (Json × List Char) := do
  let (ds, cs) ← digits cs
  if ds.head? = some '0' ∧ 1 < ds.length then none
  else
    let (fraction, cs) ← fraction cs
    let (exponent, cs) ← exponent cs
    if fraction.isEmpty ∧ exponent.isEmpty then some (.integer (digitsValue ds), cs)
    else some (.real (ds ++ fraction ++ exponent), cs)

/-- The number with a minus sign before it; a negative zero is no integer. -/
def negate : Json → Json
  | .integer 0 => .real ['-', '0']
  | .integer i => .integer (-i)
  | .real literal => .real ('-' :: literal)
  | v => v

/-- A number at the front, and what follows. -/
def number : List Char → Option (Json × List Char)
  | '-' :: cs => (unsigned cs).map fun (v, cs) => (negate v, cs)
  | cs => unsigned cs

/-! ## Tokens -/

/-- The first token, and what follows. -/
def token : List Char → Option (Token × List Char)
  | '[' :: cs => some (.openArray, cs)
  | ']' :: cs => some (.closeArray, cs)
  | '\x7b' :: cs => some (.openObject, cs)
  | '\x7d' :: cs => some (.closeObject, cs)
  | ':' :: cs => some (.colon, cs)
  | ',' :: cs => some (.comma, cs)
  | 'n' :: 'u' :: 'l' :: 'l' :: cs => some (.value .null, cs)
  | 't' :: 'r' :: 'u' :: 'e' :: cs => some (.value (.bool true), cs)
  | 'f' :: 'a' :: 'l' :: 's' :: 'e' :: cs => some (.value (.bool false), cs)
  | '"' :: cs => (codeUnits cs).map fun (units, cs) =>
    (.value (.string ((joinUnits units).map String.ofList)), cs)
  | cs => (number cs).map fun (v, cs) => (.value v, cs)

/-! ## Every token takes a character -/

/-- The closing quotation mark of a string is taken. -/
theorem length_of_codeUnits {cs rest : List Char} {units : List Nat}
    (h : codeUnits cs = some (units, rest)) : rest.length < cs.length := by
  fun_induction codeUnits cs generalizing units with
  | case1 => cases h
  | case2 cs => cases h; exact Nat.lt_succ_self _
  | case3 a b c d cs ih =>
    simp only [Option.bind_eq_bind, Option.bind_eq_some_iff, Prod.exists] at h
    obtain ⟨_, _, _, _, hcs, hrest⟩ := h
    cases hrest
    have := ih hcs
    simp only [List.length_cons]
    omega
  | case4 letter cs _ ih =>
    simp only [Option.bind_eq_bind, Option.bind_eq_some_iff, Prod.exists] at h
    obtain ⟨_, _, _, _, hcs, hrest⟩ := h
    cases hrest
    have := ih hcs
    simp only [List.length_cons]
    omega
  | case5 => cases h
  | case6 c cs _ _ _ _ ih =>
    simp only [Option.bind_eq_bind, Option.bind_eq_some_iff, Prod.exists] at h
    obtain ⟨_, _, hcs, hrest⟩ := h
    cases hrest
    have := ih hcs
    simp only [List.length_cons]
    omega

theorem length_of_digits {cs ds rest : List Char} (h : digits cs = some (ds, rest)) :
    rest.length < cs.length := by
  simp only [digits] at h
  split at h
  · cases h
  · rename_i hds
    cases h
    have happend := congrArg List.length (List.takeWhile_append_dropWhile (p := Char.isDigit) (l := cs))
    have hpos := List.length_pos_iff.2 (mt List.isEmpty_iff.2 hds)
    rw [List.length_append] at happend
    omega

theorem length_of_fraction {cs ds rest : List Char} (h : fraction cs = some (ds, rest)) :
    rest.length ≤ cs.length := by
  simp only [fraction] at h
  split at h
  · simp only [Option.bind_eq_bind, Option.bind_eq_some_iff, Prod.exists] at h
    obtain ⟨_, _, hds, hrest⟩ := h
    cases hrest
    have := length_of_digits hds
    simp only [List.length_cons]
    omega
  · cases h; exact Nat.le_refl _

theorem length_of_exponent {cs ds rest : List Char} (h : exponent cs = some (ds, rest)) :
    rest.length ≤ cs.length := by
  cases cs with
  | nil => cases h; exact Nat.le_refl _
  | cons e cs =>
    simp only [exponent] at h
    split at h
    · simp only [Option.bind_eq_bind, Option.bind_eq_some_iff, Prod.exists] at h
      obtain ⟨_, _, hds, hrest⟩ := h
      cases hrest
      have hlt := length_of_digits hds
      have hsign : (match cs with
          | '+' :: cs => (['+'], cs)
          | '-' :: cs => (['-'], cs)
          | cs => ([], cs)).2.length ≤ cs.length := by
        split <;> simp
      simp only [List.length_cons]
      omega
    · cases h; exact Nat.le_refl _

theorem length_of_unsigned {cs rest : List Char} {v : Json} (h : unsigned cs = some (v, rest)) :
    rest.length < cs.length := by
  simp only [unsigned, Option.bind_eq_bind, Option.bind_eq_some_iff, Prod.exists] at h
  obtain ⟨ds, cs₁, hds, h⟩ := h
  split at h
  · cases h
  · simp only [Option.bind_eq_some_iff, Prod.exists] at h
    obtain ⟨_, _, hfraction, _, _, hexponent, h⟩ := h
    have h₁ := length_of_digits hds
    have h₂ := length_of_fraction hfraction
    have h₃ := length_of_exponent hexponent
    split at h <;> cases h <;> omega

theorem length_of_number {cs rest : List Char} {v : Json} (h : number cs = some (v, rest)) :
    rest.length < cs.length := by
  simp only [number] at h
  split at h
  · simp only [Option.map_eq_some_iff, Prod.exists] at h
    obtain ⟨_, _, hunsigned, h⟩ := h
    cases h
    have := length_of_unsigned hunsigned
    simp only [List.length_cons]
    omega
  · exact length_of_unsigned h

/-- A token takes at least one character. -/
theorem length_of_token {cs rest : List Char} {t : Token} (h : token cs = some (t, rest)) :
    rest.length < cs.length := by
  simp only [token] at h
  split at h
  case h_10 =>
    simp only [Option.map_eq_some_iff, Prod.exists] at h
    obtain ⟨_, _, hunits, h⟩ := h
    cases h
    have := length_of_codeUnits hunits
    simp only [List.length_cons]
    omega
  case h_11 =>
    simp only [Option.map_eq_some_iff, Prod.exists] at h
    obtain ⟨_, _, hnumber, h⟩ := h
    cases h
    exact length_of_number hnumber
  all_goals
    cases h
    simp only [List.length_cons]
    omega

/-- The tokens of a text. -/
def tokens (cs : List Char) : Option (List Token) :=
  match cs with
  | [] => some []
  | c :: cs =>
    if isBlank c then tokens cs
    else
      match _h : token (c :: cs) with
      | none => none
      | some (t, rest) => (tokens rest).map (t :: ·)
termination_by cs.length
decreasing_by
  · exact Nat.lt_succ_self _
  · exact length_of_token _h

end RowStream.Json
