import RowStream.Json.Token

/-!
# `RowStream.Proofs.Json.Quoted` — the strings of JSON text

Between quotation marks, most characters may stand for themselves, some may stand after a backslash as
a letter, and all may be given by their code units in four digits. The inside of a string is read
exactly if it looks like that, and the written form of a text is one of its spellings.

## Contents
- `SpelledUnit`, `Spelled` — the spellings of code units.
- `codeUnits_eq_some_iff` — code units are read from their spellings, and from nothing else.
- `joinUnits_map_toNat` — the code points of characters are a text.
- `spelled_escape` — the written form of a text.
-/

namespace RowStream.Json

/-! ## Spellings -/

/-- The spellings of a code unit between quotation marks. -/
inductive SpelledUnit : Nat → List Char → Prop where
  /-- A character itself, if it is no control character, quotation mark or backslash. -/
  | plain {c : Char} : 0x20 ≤ c.toNat → c ≠ '"' → c ≠ '\\' → SpelledUnit c.toNat [c]
  /-- A letter after a backslash. -/
  | letter {l c : Char} : unescape? l = some c → SpelledUnit c.toNat ['\\', l]
  /-- Four digits. -/
  | digits {unit : Nat} {d₁ d₂ d₃ d₄ : Char} : hexUnit? d₁ d₂ d₃ d₄ = some unit →
      SpelledUnit unit ['\\', 'u', d₁, d₂, d₃, d₄]

/-- The spellings of code units, one after the other. -/
inductive Spelled : List Nat → List Char → Prop where
  /-- Nothing is spelled by nothing. -/
  | nil : Spelled [] []
  /-- A spelling of the first code unit, and one of the others. -/
  | cons {unit : Nat} {units : List Nat} {w cs : List Char} : SpelledUnit unit w →
      Spelled units cs → Spelled (unit :: units) (w ++ cs)

/-- A character that stands for itself is read as its code point. -/
theorem codeUnits_plain {c : Char} (hcontrol : 0x20 ≤ c.toNat) (hquote : c ≠ '"')
    (hbackslash : c ≠ '\\') (cs : List Char) :
    codeUnits (c :: cs) = (codeUnits cs).map fun found => (c.toNat :: found.1, found.2) := by
  rw [codeUnits.eq_def]
  split
  case h_1 heq => cases heq
  case h_2 heq => exact absurd (List.cons_eq_cons.1 heq).1 hquote
  case h_3 heq => exact absurd (List.cons_eq_cons.1 heq).1 hbackslash
  case h_4 heq => exact absurd (List.cons_eq_cons.1 heq).1 hbackslash
  case h_5 heq =>
    cases heq
    rw [if_neg (not_or.2 ⟨Nat.not_lt.2 hcontrol, hbackslash⟩)]
    cases codeUnits cs <;> rfl

/-- A letter after a backslash is read as the code point of its character. -/
theorem codeUnits_letter {l c : Char} (h : unescape? l = some c) (cs : List Char) :
    codeUnits ('\\' :: l :: cs) = (codeUnits cs).map fun found => (c.toNat :: found.1, found.2) := by
  rw [codeUnits.eq_def]
  split
  case h_1 heq => cases heq
  case h_2 heq => cases heq
  case h_3 heq =>
    cases heq
    cases h
  case h_4 heq =>
    cases heq
    rw [h]
    show ((codeUnits cs).bind fun found => some (c.toNat :: found.1, found.2)) = _
    cases codeUnits cs <;> rfl
  case h_5 hletter heq =>
    cases heq
    exact absurd rfl (hletter l cs rfl)

/-- Four digits are read as their value. -/
theorem codeUnits_unit {d₁ d₂ d₃ d₄ : Char} {unit : Nat} (h : hexUnit? d₁ d₂ d₃ d₄ = some unit)
    (cs : List Char) : codeUnits ('\\' :: 'u' :: d₁ :: d₂ :: d₃ :: d₄ :: cs) =
      (codeUnits cs).map fun found => (unit :: found.1, found.2) := by
  rw [codeUnits, h]
  cases codeUnits cs <;> rfl

/-- Every spelling of a code unit is read as it. -/
theorem codeUnits_spelledUnit {unit : Nat} {w : List Char} (h : SpelledUnit unit w)
    (cs : List Char) :
    codeUnits (w ++ cs) = (codeUnits cs).map fun found => (unit :: found.1, found.2) := by
  cases h with
  | plain hcontrol hquote hbackslash => exact codeUnits_plain hcontrol hquote hbackslash cs
  | letter hletter => exact codeUnits_letter hletter cs
  | digits hdigits => exact codeUnits_unit hdigits cs

/-- What is read as code units is a spelling of them. -/
theorem spelled_of_codeUnits {cs rest : List Char} {units : List Nat}
    (h : codeUnits cs = some (units, rest)) : ∃ w, cs = w ++ '"' :: rest ∧ Spelled units w := by
  fun_induction codeUnits cs generalizing units with
  | case1 => cases h
  | case2 cs =>
    cases h
    exact ⟨[], rfl, .nil⟩
  | case3 a b c d cs ih =>
    simp only [Option.bind_eq_bind, Option.bind_eq_some_iff, Prod.exists] at h
    obtain ⟨unit, hunit, units', rest', hcs, h⟩ := h
    cases h
    obtain ⟨w, rfl, hw⟩ := ih hcs
    exact ⟨'\\' :: 'u' :: a :: b :: c :: d :: w, rfl, .cons (.digits hunit) hw⟩
  | case4 letter cs _ ih =>
    simp only [Option.bind_eq_bind, Option.bind_eq_some_iff, Prod.exists] at h
    obtain ⟨c, hc, units', rest', hcs, h⟩ := h
    cases h
    obtain ⟨w, rfl, hw⟩ := ih hcs
    exact ⟨'\\' :: letter :: w, rfl, .cons (.letter hc) hw⟩
  | case5 => cases h
  | case6 c cs hquote _ _ hplain ih =>
    simp only [Option.bind_eq_bind, Option.bind_eq_some_iff, Prod.exists] at h
    obtain ⟨units', rest', hcs, h⟩ := h
    cases h
    obtain ⟨w, rfl, hw⟩ := ih hcs
    obtain ⟨hcontrol, hbackslash⟩ := not_or.1 hplain
    exact ⟨c :: w, rfl, .cons (.plain (Nat.not_lt.1 hcontrol) hquote hbackslash) hw⟩

/-- Code units are read from their spellings, and from nothing else. -/
theorem codeUnits_eq_some_iff {cs rest : List Char} {units : List Nat} :
    codeUnits cs = some (units, rest) ↔ ∃ w, cs = w ++ '"' :: rest ∧ Spelled units w := by
  constructor
  · exact spelled_of_codeUnits
  · rintro ⟨w, rfl, hw⟩
    induction hw with
    | nil => rw [List.nil_append, codeUnits]
    | cons hunit _ ih =>
      rw [List.append_assoc, codeUnits_spelledUnit hunit, ih]
      rfl

/-! ## The written form of a text -/

/-- A character is no half of a surrogate pair. -/
theorem not_half (c : Char) : isHighHalf c.toNat = false ∧ isLowHalf c.toNat = false := by
  have hvalid : c.toNat < 0xD800 ∨ 0xDFFF < c.toNat ∧ c.toNat < 0x110000 := c.valid
  simp only [isHighHalf, isLowHalf, Bool.and_eq_false_iff, decide_eq_false_iff_not]
  omega

/-- The code points of characters are a text. -/
theorem joinUnits_map_toNat (s : List Char) : joinUnits (s.map Char.toNat) = some s := by
  induction s with
  | nil => rfl
  | cons c s ih =>
    obtain ⟨hhigh, hlow⟩ := not_half c
    cases s with
    | nil => simp [joinUnits, hhigh, hlow]
    | cons d s =>
      rw [List.map_cons, List.map_cons, joinUnits, hhigh, hlow]
      rw [List.map_cons] at ih
      simp [ih]

/-- A letter that is written is read as its character. -/
theorem unescape?_of_escapeLetter? {c l : Char} (h : escapeLetter? c = some l) :
    unescape? l = some c := by
  unfold escapeLetter? at h
  split at h <;> cases h <;> rfl

theorem hexDigit?_digitChar : ∀ n < 16, hexDigit? (Nat.digitChar n) = some n := by decide

/-- The written form of a character is a spelling of its code point. -/
theorem spelledUnit_escape (c : Char) : SpelledUnit c.toNat (escape c) := by
  unfold escape
  cases hletter : escapeLetter? c with
  | some l => exact .letter (unescape?_of_escapeLetter? hletter)
  | none =>
    by_cases hcontrol : c.toNat < 0x20
    · -- the digits of a number below 32
      have hhigh := hexDigit?_digitChar (c.toNat / 16) (by omega)
      have hlow := hexDigit?_digitChar (c.toNat % 16) (by omega)
      have hzero : hexDigit? '0' = some 0 := by decide
      simp only [hcontrol, if_true]
      apply SpelledUnit.digits
      simp only [hexUnit?, hzero, hhigh, hlow, Option.pure_def, Option.bind_eq_bind,
        Option.bind_some, Option.some.injEq]
      omega
    · simp only [hcontrol, if_false]
      refine .plain (Nat.le_of_not_lt hcontrol) ?_ ?_
      · rintro rfl
        cases hletter
      · rintro rfl
        cases hletter

/-- The written form of a text is a spelling of its code points. -/
theorem spelled_escape (s : List Char) : Spelled (s.map Char.toNat) (s.flatMap escape) := by
  induction s with
  | nil => exact .nil
  | cons c s ih =>
    rw [List.flatMap_cons]
    exact .cons (spelledUnit_escape c) ih

end RowStream.Json
