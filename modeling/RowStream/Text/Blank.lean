/-!
# `RowStream.Text.Blank` — white space and its removal

A character is blank if it has the Unicode property `White_Space`, a set of 25 code points in ten
ranges.

## Contents
- `Text.blankRanges`, `Text.isBlank` — the property.
- `Text.trim` — a text without the blanks at its two ends.
- `Text.lowerAscii` — a text with its ASCII capitals made small.
-/

namespace RowStream.Text

/-- The code points of the property `White_Space`, as closed ranges in ascending order. -/
def blankRanges : List (Nat × Nat) :=
  [(0x09, 0x0D), (0x20, 0x20), (0x85, 0x85), (0xA0, 0xA0), (0x1680, 0x1680), (0x2000, 0x200A),
   (0x2028, 0x2029), (0x202F, 0x202F), (0x205F, 0x205F), (0x3000, 0x3000)]

/-- Whether the code point lies in one of the closed ranges. -/
def inRanges (ranges : List (Nat × Nat)) (n : Nat) : Bool :=
  ranges.any fun r => r.1 ≤ n && n ≤ r.2

/-- Whether the character is white space. -/
def isBlank (c : Char) : Bool := inRanges blankRanges c.toNat

/-- The characters without the blanks at the two ends. -/
def trimList (cs : List Char) : List Char :=
  ((cs.dropWhile isBlank).reverse.dropWhile isBlank).reverse

/-- The text without the blanks at its two ends. -/
def trim (s : String) : String := String.ofList (trimList s.toList)

/-- The text with `A` to `Z` made small and everything else kept. -/
def lowerAscii (s : String) : String := String.ofList (s.toList.map Char.toLower)

end RowStream.Text
