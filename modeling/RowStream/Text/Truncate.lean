/-!
# `RowStream.Text.Truncate` — cutting text to a number of UTF-8 bytes

A text is cut between two characters, never inside one: what is kept is the longest run of leading
characters whose encodings fit the budget together.

## Contents
- `Text.takeBytes`, `Text.byteLength` — the cut and the length on lists of characters.
- `Text.truncate` — the cut on strings.
- `byteLength_takeBytes_le`, `takeBytes_eq_self`, `takeBytes_append_drop` — a cut fits, loses nothing
  that fits, and keeps what comes first.
-/

namespace RowStream.Text

/-- The number of bytes that the characters take in UTF-8. -/
def byteLength : List Char → Nat
  | [] => 0
  | c :: cs => c.utf8Size + byteLength cs

/-- The leading characters that fit `budget` bytes, up to the first one that does not fit. -/
def takeBytes : Nat → List Char → List Char
  | _, [] => []
  | budget, c :: cs =>
    if c.utf8Size ≤ budget then c :: takeBytes (budget - c.utf8Size) cs else []

/-- The longest leading part of `s` that takes at most `budget` bytes. -/
def truncate (budget : Nat) (s : String) : String :=
  String.ofList (takeBytes budget s.toList)

/-- A cut fits its budget. -/
theorem byteLength_takeBytes_le (budget : Nat) (cs : List Char) :
    byteLength (takeBytes budget cs) ≤ budget := by
  induction cs generalizing budget with
  | nil => simp [takeBytes, byteLength]
  | cons c cs ih =>
    simp only [takeBytes]
    split
    · have h := ih (budget - c.utf8Size)
      simp only [byteLength]
      omega
    · simp [byteLength]

/-- Nothing is lost from a text that fits. -/
theorem takeBytes_eq_self {budget : Nat} {cs : List Char} (h : byteLength cs ≤ budget) :
    takeBytes budget cs = cs := by
  induction cs generalizing budget with
  | nil => rfl
  | cons c cs ih =>
    simp only [byteLength] at h
    simp only [takeBytes]
    rw [if_pos (by omega), ih (by omega)]

/-- A cut keeps what comes first. -/
theorem takeBytes_append_drop (budget : Nat) (cs : List Char) :
    ∃ rest, takeBytes budget cs ++ rest = cs := by
  induction cs generalizing budget with
  | nil => exact ⟨[], rfl⟩
  | cons c cs ih =>
    simp only [takeBytes]
    split
    · obtain ⟨rest, h⟩ := ih (budget - c.utf8Size)
      exact ⟨rest, by simp [h]⟩
    · exact ⟨c :: cs, rfl⟩

end RowStream.Text
