import RowStream.Text.Truncate

/-!
# `RowStream.Proofs.Text.Truncate` — what a cut keeps of a text

A cut counts characters until the next one would not fit. Where texts are arrays of bytes, the same is
done from the other end: one goes back from the byte behind the budget until a character begins there.
Both find the last boundary between two characters that is not behind the budget, so the search never
gets before the first byte, and what is left ends less than one character short of the budget.

## Contents
- `prefix_takeBytes`, `lt_byteLength_takeBytes` — a cut keeps all that fits, and leaves less of its budget
  free than the longest character takes.
- `isValid_iff_exists_lead` — boundaries between bytes and leading characters.
- `Text.LongestFit`, `longestFit_truncate`, `LongestFit.eq_truncate` — a cut is the longest leading part
  that fits, and nothing else is.
- `Text.boundaryBefore?`, `boundaryBefore?_eq_some_iff` — the search for a boundary.
- `Text.searchCut?`, `searchCut?_eq` — the cut that is found by searching.
-/

namespace RowStream.Text

variable {budget : Nat} {lead cs : List Char} {s t : String}

/-! ## Characters -/

/-- What leads a text and fits leads the cut as well. -/
theorem prefix_takeBytes (hlead : lead <+: cs) (hfits : byteLength lead ≤ budget) :
    lead <+: takeBytes budget cs := by
  induction lead generalizing budget cs with
  | nil => exact List.nil_prefix
  | cons c lead ih =>
    obtain ⟨rest, rfl⟩ := hlead
    simp only [byteLength] at hfits
    have hc : c.utf8Size ≤ budget := by omega
    rw [List.cons_append, takeBytes, if_pos hc, List.prefix_cons_inj]
    apply ih (List.prefix_append lead rest)
    omega

/-- What leads a text is not longer. -/
theorem byteLength_mono (h : lead <+: cs) : byteLength lead ≤ byteLength cs := by
  induction lead generalizing cs with
  | nil => exact Nat.zero_le _
  | cons c lead ih =>
    obtain ⟨rest, rfl⟩ := h
    have hrest := ih (List.prefix_append lead rest)
    simp only [List.cons_append, byteLength]
    omega

/-- A text that does not fit leaves at most three bytes of the budget free. -/
theorem lt_byteLength_takeBytes (h : budget < byteLength cs) :
    budget < byteLength (takeBytes budget cs) + 4 := by
  induction cs generalizing budget with
  | nil =>
    simp only [byteLength] at h
    omega
  | cons c cs ih =>
    have hc := c.utf8Size_le_four
    simp only [byteLength] at h
    simp only [takeBytes]
    split
    · have hrest := @ih (budget - c.utf8Size) (by omega)
      simp only [byteLength]
      omega
    · simp only [byteLength]
      omega

/-! ## Bytes -/

/-- A text takes as many bytes as its characters. -/
theorem utf8ByteSize_ofList (cs : List Char) : (String.ofList cs).utf8ByteSize = byteLength cs := by
  induction cs with
  | nil => rfl
  | cons c cs ih =>
    rw [String.ofList_cons, String.utf8ByteSize_append, String.utf8ByteSize_singleton, ih]
    rfl

theorem utf8ByteSize_eq (s : String) : s.utf8ByteSize = byteLength s.toList := by
  rw [← utf8ByteSize_ofList, String.ofList_toList]

/-- A text of these characters is cut to those of them that fit. -/
theorem truncate_ofList (budget : Nat) (cs : List Char) :
    truncate budget (String.ofList cs) = String.ofList (takeBytes budget cs) := by
  unfold truncate
  rw [String.toList_ofList]

/-- A boundary between two characters lies behind the bytes of those that lead. -/
theorem isValid_iff_exists_lead {n : Nat} : (⟨n⟩ : String.Pos.Raw).IsValid s ↔
    ∃ lead, lead <+: s.toList ∧ byteLength lead = n := by
  rw [String.Pos.Raw.isValid_iff_exists_append]
  constructor
  · rintro ⟨before, behind, rfl, hn⟩
    refine ⟨before.toList, ?_, ?_⟩
    · rw [String.toList_append]
      exact List.prefix_append _ _
    · rw [← utf8ByteSize_eq]
      exact (congrArg String.Pos.Raw.byteIdx hn).symm
  · rintro ⟨lead, ⟨rest, hs⟩, rfl⟩
    refine ⟨String.ofList lead, String.ofList rest, ?_, ?_⟩
    · rw [← String.ofList_append, hs, String.ofList_toList]
    · apply String.Pos.Raw.ext
      exact (utf8ByteSize_ofList lead).symm

/-- The text consists of the first bytes of `s`, up to a boundary between two characters that lies
within the budget, and no boundary further on does. -/
structure LongestFit (budget : Nat) (s t : String) : Prop where
  /-- These are the first bytes. -/
  bytes_eq : t.toByteArray = s.toByteArray.extract 0 t.utf8ByteSize
  /-- They end between two characters. -/
  boundary : (⟨t.utf8ByteSize⟩ : String.Pos.Raw).IsValid s
  /-- They fit. -/
  fits : t.utf8ByteSize ≤ budget
  /-- No more would fit. -/
  longest : ∀ n ≤ budget, (⟨n⟩ : String.Pos.Raw).IsValid s → n ≤ t.utf8ByteSize

/-- A cut is the longest leading part that fits. -/
theorem longestFit_truncate (budget : Nat) (s : String) : LongestFit budget s (truncate budget s) := by
  have hsize : (truncate budget s).utf8ByteSize = byteLength (takeBytes budget s.toList) :=
    utf8ByteSize_ofList _
  obtain ⟨rest, hrest⟩ := takeBytes_append_drop budget s.toList
  have hs : truncate budget s ++ String.ofList rest = s := by
    unfold truncate
    rw [← String.ofList_append, hrest, String.ofList_toList]
  constructor
  · have hbytes := congrArg String.toByteArray hs
    rw [String.toByteArray_append] at hbytes
    rw [← hbytes]
    exact (ByteArray.extract_append_eq_left (String.size_toByteArray).symm).symm
  · rw [isValid_iff_exists_lead, hsize]
    exact ⟨_, ⟨rest, hrest⟩, rfl⟩
  · rw [hsize]
    exact byteLength_takeBytes_le budget s.toList
  · intro n hn hboundary
    obtain ⟨lead, hlead, rfl⟩ := isValid_iff_exists_lead.1 hboundary
    rw [hsize]
    exact byteLength_mono (prefix_takeBytes hlead hn)

/-- Nothing else is. -/
theorem LongestFit.eq_truncate (h : LongestFit budget s t) : t = truncate budget s := by
  have hcut := longestFit_truncate budget s
  have hsize : t.utf8ByteSize = (truncate budget s).utf8ByteSize := by
    apply Nat.le_antisymm
    · exact hcut.longest _ h.fits h.boundary
    · exact h.longest _ hcut.fits hcut.boundary
  rw [← String.toByteArray_inj, h.bytes_eq, hcut.bytes_eq, hsize]

/-- A text that fits is left as it is. -/
theorem truncate_eq_self (h : s.utf8ByteSize ≤ budget) : truncate budget s = s := by
  rw [utf8ByteSize_eq] at h
  unfold truncate
  rw [takeBytes_eq_self h, String.ofList_toList]

/-- A cut is not cut again. -/
theorem truncate_truncate (budget : Nat) (s : String) :
    truncate budget (truncate budget s) = truncate budget s :=
  truncate_eq_self (longestFit_truncate budget s).fits

/-- At most three bytes of the budget stay free if the text does not fit. -/
theorem lt_utf8ByteSize_truncate (h : budget < s.utf8ByteSize) :
    budget < (truncate budget s).utf8ByteSize + 4 := by
  rw [utf8ByteSize_eq] at h
  unfold truncate
  rw [utf8ByteSize_ofList]
  exact lt_byteLength_takeBytes h

/-! ## The search for a boundary -/

/-- The last boundary of the text that is not behind `cut`. The search goes back byte by byte; there is
no answer if it would have to go before the first one. -/
def boundaryBefore? (s : String) : Nat → Option Nat
  | 0 => if (⟨0⟩ : String.Pos.Raw).isValid s then some 0 else none
  | cut + 1 =>
    if (⟨cut + 1⟩ : String.Pos.Raw).isValid s then some (cut + 1) else boundaryBefore? s cut

/-- The search finds the last boundary, and finds one always. -/
theorem boundaryBefore?_eq_some_iff {cut n : Nat} : boundaryBefore? s cut = some n ↔
    n ≤ cut ∧ (⟨n⟩ : String.Pos.Raw).IsValid s ∧
      ∀ m ≤ cut, (⟨m⟩ : String.Pos.Raw).IsValid s → m ≤ n := by
  induction cut with
  | zero =>
    have hfirst : (⟨0⟩ : String.Pos.Raw).IsValid s := String.Pos.Raw.isValid_zero
    rw [boundaryBefore?, if_pos (String.Pos.Raw.isValid_eq_true_iff.2 hfirst), Option.some.injEq]
    constructor
    · rintro rfl
      exact ⟨Nat.le_refl 0, hfirst, fun m hm _ => hm⟩
    · rintro ⟨hn, -, -⟩
      exact (Nat.le_zero.1 hn).symm
  | succ cut ih =>
    rw [boundaryBefore?]
    by_cases hlast : (⟨cut + 1⟩ : String.Pos.Raw).IsValid s
    · rw [if_pos (String.Pos.Raw.isValid_eq_true_iff.2 hlast), Option.some.injEq]
      constructor
      · rintro rfl
        exact ⟨Nat.le_refl _, hlast, fun m hm _ => hm⟩
      · rintro ⟨hn, -, hlongest⟩
        exact Nat.le_antisymm (hlongest _ (Nat.le_refl _) hlast) hn
    · rw [if_neg (mt String.Pos.Raw.isValid_eq_true_iff.1 hlast), ih]
      -- the boundaries up to here are those up to one byte less
      have hless : ∀ m ≤ cut + 1, (⟨m⟩ : String.Pos.Raw).IsValid s → m ≤ cut := by
        intro m hm hboundary
        have hne : m ≠ cut + 1 := by
          rintro rfl
          exact hlast hboundary
        omega
      constructor
      · rintro ⟨hn, hboundary, hlongest⟩
        exact ⟨by omega, hboundary, fun m hm hm' => hlongest m (hless m hm hm') hm'⟩
      · rintro ⟨hn, hboundary, hlongest⟩
        exact ⟨hless n hn hboundary, hboundary, fun m hm => hlongest m (by omega)⟩

/-- The text cut where the search finds a boundary, if it is too long. There is no answer if the search
has none, or if the bytes up to where it ends are not those of a text. -/
def searchCut? (budget : Nat) (s : String) : Option String :=
  if s.utf8ByteSize ≤ budget then some s
  else (boundaryBefore? s budget).bind fun cut => String.fromUTF8? (s.toByteArray.extract 0 cut)

/-- Bytes of a text are those of a text. -/
theorem fromUTF8?_toByteArray (s : String) : String.fromUTF8? s.toByteArray = some s := by
  unfold String.fromUTF8?
  rw [dif_pos s.isValidUTF8]
  rfl

/-- Searching for the cut and counting up to it is the same. -/
theorem searchCut?_eq (budget : Nat) (s : String) :
    searchCut? budget s = some (truncate budget s) := by
  have hcut := longestFit_truncate budget s
  unfold searchCut?
  by_cases hfits : s.utf8ByteSize ≤ budget
  · rw [if_pos hfits, truncate_eq_self hfits]
  · have hfound : boundaryBefore? s budget = some (truncate budget s).utf8ByteSize :=
      boundaryBefore?_eq_some_iff.2 ⟨hcut.fits, hcut.boundary, hcut.longest⟩
    rw [if_neg hfits, hfound, Option.bind_some, ← hcut.bytes_eq, fromUTF8?_toByteArray]

/-- The sign of four bytes stands behind six others, so the search goes back from nine to six. -/
example : searchCut? 9 "aé€😀" = some "aé€" := by decide

end RowStream.Text
