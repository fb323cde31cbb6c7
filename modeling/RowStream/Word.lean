/-!
# `RowStream.Word` — sizes that live in 64-bit words

Sizes, indexes and identifiers are natural numbers below `Word.limit`. Arithmetic on them is plain
arithmetic of naturals except in the two places where a word can fill up: adding to a counter stops
at the largest word, and taking away from it goes round.

## Contents
- `Word.limit`, `Word.top` — the first number that no longer fits, and the last one that does.
- `Word.saturatingAdd`, `Word.saturatingMul`, `Word.wrappingSub` — the arithmetic of full words.
- `Word.ofDigits?` — reading an unsigned decimal number that fits a word.
-/

namespace RowStream.Word

/-- The first natural number that does not fit a 64-bit word, the 64th power of two. -/
def limit : Nat := 18446744073709551616

/-- The largest 64-bit word. -/
def top : Nat := limit - 1

/-- Addition that stops at the largest word. -/
def saturatingAdd (a b : Nat) : Nat := min (a + b) top

/-- Multiplication that stops at the largest word. -/
def saturatingMul (a b : Nat) : Nat := min (a * b) top

/-- Subtraction modulo the word size. -/
def wrappingSub (a b : Nat) : Nat := (((a : Int) - b) % limit).toNat

/-- Below the top of the range, saturating addition is addition. -/
theorem saturatingAdd_eq_add {a b : Nat} (h : a + b < limit) : saturatingAdd a b = a + b := by
  simp only [saturatingAdd, top]
  omega

/-- Taking away no more than there is never goes round. -/
theorem wrappingSub_eq_sub {a b : Nat} (hb : b ≤ a) (ha : a < limit) : wrappingSub a b = a - b := by
  simp only [wrappingSub]
  have h : (((a : Int) - b) % (limit : Int)) = (a : Int) - b :=
    Int.emod_eq_of_lt (by omega) (by omega)
  rw [h]
  omega

/-- The value of a list of decimal digits, or `none` if one of them is no ASCII digit. -/
def digitsValue? (digits : List Char) : Option Nat :=
  digits.foldlM (fun n c => if c.isDigit then some (10 * n + (c.toNat - '0'.toNat)) else none) 0

/-- Reads one or more ASCII digits that denote a number below `limit`. -/
def ofDigits? (digits : List Char) : Option Nat :=
  if digits.isEmpty then none
  else (digitsValue? digits).filter (· < limit)

end RowStream.Word
