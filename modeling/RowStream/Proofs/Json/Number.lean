import Mathlib.Data.List.Induction
import RowStream.Json.Token

/-!
# `RowStream.Proofs.Json.Number` — the numbers of JSON text

What a number looks like is said here without reading it: perhaps a minus sign, digits without leading
zeros, perhaps a fraction, and perhaps an exponent. A number is read exactly if the text looks like
that, as far as it does. Without a fraction and an exponent it is an integer, and an integer has one
text.

## Contents
- `Digits`, `Natural`, `toDigits_digitsValue` — digits, and those of natural numbers.
- `Fraction`, `Exponent`, `Numeral` — the texts of numbers.
- `unsigned_append`, `parts_of_unsigned` — numbers without a sign.
- `number_of_numeral`, `numeral_of_number` — numbers are read from their texts, and from no other.
-/

namespace RowStream.Json

/-! ## Digits -/

/-- One or more decimal digits. -/
structure Digits (ds : List Char) : Prop where
  /-- All are digits. -/
  isDigit : ∀ c ∈ ds, c.isDigit = true
  /-- There is one. -/
  ne_nil : ds ≠ []

/-- The digits go no further. -/
def NoDigit (cs : List Char) : Prop := ∀ c ∈ cs.head?, c.isDigit = false

/-- Digits are taken as far as they go. -/
theorem digits_eq_some_iff {cs ds rest : List Char} :
    digits cs = some (ds, rest) ↔ cs = ds ++ rest ∧ Digits ds ∧ NoDigit rest := by
  unfold digits
  constructor
  · intro h
    by_cases hnone : (cs.takeWhile Char.isDigit).isEmpty = true
    · rw [if_pos hnone] at h
      cases h
    · rw [if_neg hnone] at h
      cases h
      refine ⟨List.takeWhile_append_dropWhile.symm, ⟨?_, ?_⟩, ?_⟩
      · exact fun c hc => List.all_eq_true.1 List.all_takeWhile c hc
      · exact mt List.isEmpty_iff.2 hnone
      · intro c hc
        have hhead := List.head?_dropWhile_not Char.isDigit cs
        rw [Option.mem_def.1 hc] at hhead
        simpa using hhead
  · rintro ⟨rfl, hds, hrest⟩
    have htake : rest.takeWhile Char.isDigit = [] := by
      cases rest with
      | nil => rfl
      | cons c cs => exact List.takeWhile_cons_of_neg (by simp [hrest c rfl])
    have hdrop : rest.dropWhile Char.isDigit = rest := by
      cases rest with
      | nil => rfl
      | cons c cs => exact List.dropWhile_cons_of_neg (by simp [hrest c rfl])
    rw [List.takeWhile_append_of_pos hds.isDigit, List.dropWhile_append_of_pos hds.isDigit, htake,
      hdrop, List.append_nil, if_neg (mt List.isEmpty_iff.1 hds.ne_nil)]

/-- The digits of a natural number: only zero begins with a zero. -/
structure Natural (ds : List Char) : Prop extends Digits ds where
  /-- A zero at the front stands alone. -/
  zero : ds.head? = some '0' → ds.length = 1

theorem digitChar_eq_zero : ∀ n < 10, Nat.digitChar n = '0' → n = 0 := by decide

theorem head?_append_toDigits (n : Nat) (cs : List Char) :
    (Nat.toDigits 10 n ++ cs).head? = (Nat.toDigits 10 n).head? := by
  rw [List.head?_append, List.head?_eq_some_head Nat.toDigits_ne_nil, Option.some_or]

/-- Only the digits of zero begin with a zero. -/
theorem head?_toDigits {n : Nat} (h : (Nat.toDigits 10 n).head? = some '0') : n = 0 := by
  induction n using Nat.strongRecOn with
  | _ n ih =>
    by_cases hn : n < 10
    · rw [Nat.toDigits_of_lt_base hn, List.head?_cons, Option.some.injEq] at h
      exact digitChar_eq_zero n hn h
    · -- the digits of a tenth come first, and it is not zero
      rw [Nat.toDigits_of_base_le (by decide) (by omega), head?_append_toDigits] at h
      have := ih (n / 10) (by omega) h
      omega

/-- The digits of a natural number are such digits. -/
theorem natural_toDigits (n : Nat) : Natural (Nat.toDigits 10 n) where
  isDigit _ hc := Nat.isDigit_of_mem_toDigits (by decide) (by decide) hc
  ne_nil := Nat.toDigits_ne_nil
  zero hhead := by
    rw [head?_toDigits hhead]
    rfl

theorem digitsValue_toDigits (n : Nat) : digitsValue (Nat.toDigits 10 n) = n :=
  Nat.ofDigitChars_ten_toDigits

/-- A digit is the digit of its value. -/
theorem digitChar_of_isDigit {c : Char} (h : c.isDigit = true) :
    c.toNat - '0'.toNat < 10 ∧ Nat.digitChar (c.toNat - '0'.toNat) = c := by
  have hzero : '0'.toNat = 48 := rfl
  obtain ⟨hlow, hhigh⟩ : 48 ≤ c.toNat ∧ c.toNat ≤ 57 := by
    simpa [Char.isDigit, UInt32.le_iff_toNat_le] using h
  have hlt : c.toNat - '0'.toNat < 10 := by omega
  refine ⟨hlt, ?_⟩
  apply Char.toNat_inj.1
  rw [Nat.toNat_digitChar_of_lt_ten hlt]
  omega

/-- There are no other digits of that number. -/
theorem toDigits_digitsValue {ds : List Char} (h : Natural ds) :
    Nat.toDigits 10 (digitsValue ds) = ds := by
  induction ds using List.reverseRecOn with
  | nil => exact absurd rfl h.ne_nil
  | append_singleton front c ih =>
    obtain ⟨hlt, hc⟩ := digitChar_of_isDigit (h.isDigit c (by simp))
    have hvalue : digitsValue (front ++ [c]) = 10 * digitsValue front + (c.toNat - '0'.toNat) := by
      unfold digitsValue
      rw [List.foldl_append]
      rfl
    cases front with
    | nil =>
      rw [hvalue]
      show Nat.toDigits 10 (0 + (c.toNat - '0'.toNat)) = [c]
      rw [Nat.zero_add, Nat.toDigits_of_lt_base hlt, hc]
    | cons d front =>
      -- the digits before the last one are those of a number, and it is not zero
      have hnatural : Natural (d :: front) := by
        refine ⟨⟨fun e he => h.isDigit e (List.mem_append_left _ he), nofun⟩, ?_⟩
        intro hhead
        have := h.zero hhead
        simp at this
      have hfront := ih hnatural
      have hpos : digitsValue (d :: front) ≠ 0 := by
        intro hzero
        rw [hzero] at hfront
        have := h.zero (by rw [← hfront]; rfl)
        simp at this
      rw [hvalue, Nat.toDigits_of_base_le (by decide) (by omega)]
      have hdiv : (10 * digitsValue (d :: front) + (c.toNat - '0'.toNat)) / 10 =
          digitsValue (d :: front) := by omega
      have hmod : (10 * digitsValue (d :: front) + (c.toNat - '0'.toNat)) % 10 =
          c.toNat - '0'.toNat := by omega
      rw [hdiv, hmod, hfront, hc]

/-! ## Numbers -/

/-- A fraction, if there is one. -/
inductive Fraction : List Char → Prop where
  /-- There is none. -/
  | none : Fraction []
  /-- A point and digits. -/
  | digits {ds : List Char} : Digits ds → Fraction ('.' :: ds)

/-- An exponent, if there is one. -/
inductive Exponent : List Char → Prop where
  /-- There is none. -/
  | none : Exponent []
  /-- A letter, perhaps a sign, and digits. -/
  | digits {e : Char} {sign ds : List Char} : e = 'e' ∨ e = 'E' →
      sign = [] ∨ sign = ['+'] ∨ sign = ['-'] → Digits ds → Exponent (e :: sign ++ ds)

/-- The texts of numbers, with what they denote. -/
inductive Numeral : Json → List Char → Prop where
  /-- An integer, without leading zeros. -/
  | integer (i : Int) : Numeral (.integer i) (toString i).toList
  /-- The negative zero. -/
  | negativeZero : Numeral (.real ['-', '0']) ['-', '0']
  /-- A number with a fraction or an exponent. -/
  | real {sign ds f e : List Char} : sign = [] ∨ sign = ['-'] → Natural ds → Fraction f →
      Exponent e → (f ≠ [] ∨ e ≠ []) → Numeral (.real (sign ++ (ds ++ f ++ e))) (sign ++ (ds ++ f ++ e))

/-- What may follow a number. -/
def Ends (cs : List Char) : Prop :=
  ∀ c ∈ cs.head?, c.isDigit = false ∧ c ≠ '.' ∧ c ≠ 'e' ∧ c ≠ 'E'

/-- A fraction is taken if there is a point. -/
theorem fraction_eq_some_iff {cs f rest : List Char} :
    fraction cs = some (f, rest) ↔ cs = f ++ rest ∧ Fraction f ∧
      (f = [] → rest.head? ≠ some '.') ∧ (f ≠ [] → NoDigit rest) := by
  constructor
  · intro h
    unfold fraction at h
    split at h
    · rename_i cs'
      obtain ⟨⟨ds, after⟩, hdigits, h⟩ := Option.bind_eq_some_iff.1 h
      cases h
      obtain ⟨rfl, hds, hrest⟩ := digits_eq_some_iff.1 hdigits
      exact ⟨rfl, .digits hds, nofun, fun _ => hrest⟩
    · rename_i hpoint
      cases h
      refine ⟨rfl, .none, ?_, fun hne => absurd rfl hne⟩
      rintro - hhead
      obtain ⟨tail, htail⟩ := List.head?_eq_some_iff.1 hhead
      exact hpoint tail htail
  · rintro ⟨rfl, hf, hpoint, hdigit⟩
    cases hf with
    | none =>
      unfold fraction
      split
      · rename_i heq
        rw [List.nil_append] at heq
        exact absurd (by rw [heq]; rfl) (hpoint rfl)
      · rfl
    | digits hds =>
      show (digits (_ ++ rest)).bind _ = _
      rw [digits_eq_some_iff.2 ⟨rfl, hds, hdigit nofun⟩]
      rfl

theorem exponent_signed {e sign : Char} (he : e = 'e' ∨ e = 'E') (hsign : sign = '+' ∨ sign = '-')
    (cs : List Char) : exponent (e :: sign :: cs) =
      (digits cs).map fun found => (e :: sign :: found.1, found.2) := by
  rcases hsign with rfl | rfl <;>
  · show (if e = 'e' ∨ e = 'E' then (digits cs).bind _ else _) = _
    rw [if_pos he]
    cases digits cs <;> rfl

theorem exponent_unsigned {e : Char} (he : e = 'e' ∨ e = 'E') {cs : List Char}
    (hsign : ∀ c ∈ cs.head?, c ≠ '+' ∧ c ≠ '-') : exponent (e :: cs) =
      (digits cs).map fun found => (e :: found.1, found.2) := by
  show (if e = 'e' ∨ e = 'E' then _ else _) = _
  rw [if_pos he]
  split
  · exact absurd rfl (hsign '+' rfl).1
  · exact absurd rfl (hsign '-' rfl).2
  · show (digits cs).bind _ = _
    cases digits cs <;> rfl

theorem Digits.no_sign {ds : List Char} (hds : Digits ds) (rest : List Char) :
    ∀ c ∈ (ds ++ rest).head?, c ≠ '+' ∧ c ≠ '-' := by
  obtain ⟨d, ds, rfl⟩ := List.exists_cons_of_ne_nil hds.ne_nil
  rintro c ⟨⟩
  have hdigit := hds.isDigit d List.mem_cons_self
  constructor <;> rintro rfl <;> exact absurd hdigit (by decide)

/-- After the letter of an exponent, there are perhaps a sign and digits. -/
theorem exponent_cons_eq_some_iff {c : Char} (hc : c = 'e' ∨ c = 'E') {cs e rest : List Char} :
    exponent (c :: cs) = some (e, rest) ↔ ∃ sign ds, e = c :: sign ++ ds ∧
      cs = sign ++ (ds ++ rest) ∧ (sign = [] ∨ sign = ['+'] ∨ sign = ['-']) ∧ Digits ds ∧
        NoDigit rest := by
  constructor
  · intro h
    by_cases hsign : ∃ sign after, cs = sign :: after ∧ (sign = '+' ∨ sign = '-')
    · obtain ⟨sign, after, rfl, hone⟩ := hsign
      rw [exponent_signed hc hone] at h
      obtain ⟨⟨ds, rest'⟩, hdigits, h⟩ := Option.map_eq_some_iff.1 h
      cases h
      obtain ⟨rfl, hds, hrest⟩ := digits_eq_some_iff.1 hdigits
      refine ⟨[sign], ds, rfl, rfl, ?_, hds, hrest⟩
      rcases hone with rfl | rfl <;> simp
    · have hnone : ∀ d ∈ cs.head?, d ≠ '+' ∧ d ≠ '-' := by
        intro d hd
        obtain ⟨after, rfl⟩ := List.head?_eq_some_iff.1 hd
        exact not_or.1 fun hone => hsign ⟨d, after, rfl, hone⟩
      rw [exponent_unsigned hc hnone] at h
      obtain ⟨⟨ds, rest'⟩, hdigits, h⟩ := Option.map_eq_some_iff.1 h
      cases h
      obtain ⟨rfl, hds, hrest⟩ := digits_eq_some_iff.1 hdigits
      exact ⟨[], ds, rfl, rfl, .inl rfl, hds, hrest⟩
  · rintro ⟨sign, ds, rfl, rfl, hsign, hds, hrest⟩
    have hdigits : digits (ds ++ rest) = some (ds, rest) := digits_eq_some_iff.2 ⟨rfl, hds, hrest⟩
    rcases hsign with rfl | rfl | rfl
    · rw [List.nil_append, exponent_unsigned hc (hds.no_sign rest), hdigits]
      rfl
    · rw [List.singleton_append, exponent_signed hc (.inl rfl), hdigits]
      rfl
    · rw [List.singleton_append, exponent_signed hc (.inr rfl), hdigits]
      rfl

/-- An exponent is taken if there is a letter for it. -/
theorem exponent_eq_some_iff {cs e rest : List Char} :
    exponent cs = some (e, rest) ↔ cs = e ++ rest ∧ Exponent e ∧
      (e = [] → ∀ c ∈ rest.head?, c ≠ 'e' ∧ c ≠ 'E') ∧ (e ≠ [] → NoDigit rest) := by
  constructor
  · intro h
    cases cs with
    | nil =>
      cases h
      exact ⟨rfl, .none, nofun, fun hne => absurd rfl hne⟩
    | cons c cs =>
      by_cases hc : c = 'e' ∨ c = 'E'
      · obtain ⟨sign, ds, rfl, rfl, hsign, hds, hrest⟩ := (exponent_cons_eq_some_iff hc).1 h
        exact ⟨by simp, .digits hc hsign hds, nofun, fun _ => hrest⟩
      · have hexponent : exponent (c :: cs) = some ([], c :: cs) := if_neg hc
        rw [hexponent] at h
        cases h
        refine ⟨rfl, .none, ?_, fun hne => absurd rfl hne⟩
        rintro - d ⟨⟩
        exact not_or.1 hc
  · rintro ⟨rfl, he, hletter, hdigit⟩
    cases he with
    | none =>
      cases rest with
      | nil => rfl
      | cons c cs => exact if_neg (not_or.2 (hletter rfl c rfl))
    | @digits c sign ds hc hsign hds =>
      rw [List.append_assoc, List.cons_append]
      exact (exponent_cons_eq_some_iff hc).2 ⟨sign, ds, rfl, rfl, hsign, hds, hdigit nofun⟩

theorem Ends.noDigit {rest : List Char} (h : Ends rest) : NoDigit rest := fun c hc => (h c hc).1

theorem Exponent.noDigit {e rest : List Char} (he : Exponent e) (hrest : NoDigit rest) :
    NoDigit (e ++ rest) ∧ (rest.head? ≠ some '.' → (e ++ rest).head? ≠ some '.') := by
  cases he with
  | none => exact ⟨hrest, id⟩
  | digits hc =>
    constructor
    · rintro c ⟨⟩
      rcases hc with rfl | rfl <;> rfl
    · rintro - ⟨⟩
      revert hc
      decide

theorem Fraction.noDigit {f rest : List Char} (hf : Fraction f) (hrest : NoDigit rest) :
    NoDigit (f ++ rest) := by
  cases hf with
  | none => exact hrest
  | digits =>
    rintro c ⟨⟩
    rfl

/-- The number of these digits, fraction and exponent. -/
def parts (ds f e : List Char) : Json :=
  if f.isEmpty ∧ e.isEmpty then .integer (digitsValue ds) else .real (ds ++ f ++ e)

/-- Digits, a fraction and an exponent are a number. -/
theorem unsigned_append {ds f e rest : List Char} (hds : Natural ds) (hf : Fraction f)
    (he : Exponent e) (hrest : Ends rest) :
    unsigned (ds ++ (f ++ (e ++ rest))) = some (parts ds f e, rest) := by
  have hpoint : rest.head? ≠ some '.' := fun h => (hrest '.' h).2.1 rfl
  obtain ⟨hdigit, hnopoint⟩ := he.noDigit hrest.noDigit
  have hdigits := digits_eq_some_iff.2 ⟨rfl, hds.toDigits, hf.noDigit hdigit⟩
  have hfraction := fraction_eq_some_iff.2
    ⟨rfl, hf, fun _ => hnopoint hpoint, fun _ => hdigit⟩
  have hexponent := exponent_eq_some_iff.2
    ⟨rfl, he, fun _ c hc => (hrest c hc).2.2, fun _ => hrest.noDigit⟩
  have hfirst : ¬ (ds.head? = some '0' ∧ 1 < ds.length) := by
    rintro ⟨hhead, hlength⟩
    have := hds.zero hhead
    omega
  unfold unsigned parts
  simp only [hdigits, hfraction, hexponent, Option.bind_eq_bind, Option.bind_some, if_neg hfirst]
  split <;> rfl

/-- A number is made of digits, a fraction and an exponent. -/
theorem parts_of_unsigned {cs rest : List Char} {v : Json} (h : unsigned cs = some (v, rest)) :
    ∃ ds f e, cs = ds ++ (f ++ (e ++ rest)) ∧ Natural ds ∧ Fraction f ∧ Exponent e ∧
      v = parts ds f e ∧ NoDigit rest := by
  simp only [unsigned, Option.bind_eq_bind, Option.bind_eq_some_iff, Prod.exists] at h
  obtain ⟨ds, afterDigits, hdigits, h⟩ := h
  obtain ⟨rfl, hds, hdigit⟩ := digits_eq_some_iff.1 hdigits
  by_cases hfirst : ds.head? = some '0' ∧ 1 < ds.length
  · rw [if_pos hfirst] at h
    cases h
  · simp only [if_neg hfirst, Option.bind_eq_some_iff, Prod.exists] at h
    obtain ⟨f, afterFraction, hfraction, e, rest', hexponent, h⟩ := h
    obtain ⟨rfl, hf, -, hafter⟩ := fraction_eq_some_iff.1 hfraction
    obtain ⟨rfl, he, -, hlast⟩ := exponent_eq_some_iff.1 hexponent
    have hnatural : Natural ds := by
      refine ⟨hds, fun hhead => ?_⟩
      have := List.length_pos_iff.2 hds.ne_nil
      have := not_and.1 hfirst hhead
      omega
    have hparts : some (parts ds f e, rest') = some (v, rest) := by
      rw [← h]
      unfold parts
      split <;> rfl
    cases hparts
    refine ⟨ds, f, e, rfl, hnatural, hf, he, rfl, ?_⟩
    -- whichever part came last took all digits
    by_cases hnone : e = []
    · subst hnone
      by_cases hwhole : f = []
      · subst hwhole
        exact hdigit
      · exact hafter hwhole
    · exact hlast hnone

/-! ## Numbers with a sign -/

theorem toList_toString_nat (n : Nat) : (toString n).toList = Nat.toDigits 10 n := by
  rw [Nat.toString_eq_ofList_toDigits, String.toList_ofList]

theorem toList_toString_negSucc (n : Nat) :
    (toString (Int.negSucc n)).toList = '-' :: Nat.toDigits 10 (n + 1) := by
  show ("-" ++ toString (n + 1)).toList = _
  rw [String.toList_append, toList_toString_nat]
  rfl

theorem parts_toDigits (n : Nat) : parts (Nat.toDigits 10 n) [] [] = .integer n := by
  unfold parts
  rw [if_pos ⟨rfl, rfl⟩, digitsValue_toDigits]

theorem parts_of_ne {ds f e : List Char} (h : f ≠ [] ∨ e ≠ []) :
    parts ds f e = .real (ds ++ f ++ e) := by
  unfold parts
  rw [if_neg]
  rintro ⟨hf, he⟩
  rcases h with h | h
  · exact h (List.isEmpty_iff.1 hf)
  · exact h (List.isEmpty_iff.1 he)

/-- Digits are no sign. -/
theorem number_of_natural {ds : List Char} (hds : Natural ds) (cs : List Char) :
    number (ds ++ cs) = unsigned (ds ++ cs) := by
  have hsign := hds.no_sign cs
  unfold number
  split
  · rename_i heq
    rw [heq] at hsign
    exact absurd rfl (hsign '-' rfl).2
  · rfl

/-- A number is read from its text, if nothing follows that goes on with it. -/
theorem number_of_numeral {v : Json} {w rest : List Char} (h : Numeral v w) (hrest : Ends rest) :
    number (w ++ rest) = some (v, rest) := by
  cases h with
  | integer i =>
    cases i with
    | ofNat n =>
      show number ((toString n).toList ++ rest) = some (.integer n, rest)
      rw [toList_toString_nat, number_of_natural (natural_toDigits n), ← parts_toDigits]
      exact unsigned_append (natural_toDigits n) .none .none hrest
    | negSucc n =>
      rw [toList_toString_negSucc]
      have hunsigned := unsigned_append (natural_toDigits (n + 1)) .none .none hrest
      rw [parts_toDigits] at hunsigned
      show (unsigned (Nat.toDigits 10 (n + 1) ++ rest)).map _ = _
      rw [show unsigned (Nat.toDigits 10 (n + 1) ++ rest) = _ from hunsigned]
      rfl
  | negativeZero =>
    have hunsigned := unsigned_append (natural_toDigits 0) .none .none hrest
    show (unsigned (Nat.toDigits 10 0 ++ ([] ++ ([] ++ rest)))).map _ = _
    rw [hunsigned]
    rfl
  | @real sign ds f e hsign hds hf he hne =>
    have hunsigned := unsigned_append hds hf he hrest
    rw [parts_of_ne hne] at hunsigned
    rcases hsign with rfl | rfl
    · simp only [List.nil_append, List.append_assoc] at hunsigned ⊢
      rw [number_of_natural hds, hunsigned]
    · simp only [List.cons_append, List.append_assoc] at hunsigned ⊢
      show (unsigned (ds ++ (f ++ (e ++ rest)))).map _ = _
      rw [hunsigned]
      rfl

/-- Digits alone are an integer, and anything else is no integer. -/
theorem parts_cases {ds f e : List Char} (hds : Natural ds) :
    (∃ n, ds = Nat.toDigits 10 n ∧ f = [] ∧ e = [] ∧ parts ds f e = .integer n) ∨
      ((f ≠ [] ∨ e ≠ []) ∧ parts ds f e = .real (ds ++ f ++ e)) := by
  by_cases hnone : f = [] ∧ e = []
  · obtain ⟨rfl, rfl⟩ := hnone
    exact .inl ⟨digitsValue ds, (toDigits_digitsValue hds).symm, rfl, rfl, rfl⟩
  · have hne : f ≠ [] ∨ e ≠ [] := by
      by_contra hnot
      exact hnone ⟨not_not.1 (not_or.1 hnot).1, not_not.1 (not_or.1 hnot).2⟩
    exact .inr ⟨hne, parts_of_ne hne⟩

/-- What is read as a number is its text. -/
theorem numeral_of_number {cs rest : List Char} {v : Json} (h : number cs = some (v, rest)) :
    ∃ w, cs = w ++ rest ∧ Numeral v w ∧ NoDigit rest := by
  unfold number at h
  split at h
  · obtain ⟨⟨u, rest'⟩, hunsigned, h⟩ := Option.map_eq_some_iff.1 h
    cases h
    obtain ⟨ds, f, e, rfl, hds, hf, he, rfl, hdigit⟩ := parts_of_unsigned hunsigned
    refine ⟨'-' :: (ds ++ f ++ e), by simp, ?_, hdigit⟩
    rcases parts_cases (f := f) (e := e) hds with ⟨n, rfl, rfl, rfl, hparts⟩ | ⟨hne, hparts⟩
    · rw [hparts, List.append_nil, List.append_nil]
      cases n with
      | zero => exact .negativeZero
      | succ n =>
        rw [← toList_toString_negSucc]
        exact .integer (Int.negSucc n)
    · rw [hparts]
      exact .real (.inr rfl) hds hf he hne
  · obtain ⟨ds, f, e, rfl, hds, hf, he, rfl, hdigit⟩ := parts_of_unsigned h
    refine ⟨ds ++ f ++ e, by simp, ?_, hdigit⟩
    rcases parts_cases (f := f) (e := e) hds with ⟨n, rfl, rfl, rfl, hparts⟩ | ⟨hne, hparts⟩
    · rw [hparts, List.append_nil, List.append_nil, ← toList_toString_nat]
      exact .integer n
    · rw [hparts]
      exact .real (.inl rfl) hds hf he hne

end RowStream.Json
