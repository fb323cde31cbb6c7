import RowStream.Proofs.Json.Number
import RowStream.Proofs.Json.Quoted

/-!
# `RowStream.Proofs.Json.Spelling` — the tokens of JSON text

A list of tokens has many spellings: blanks may stand between the tokens, and a string may be spelled
in any way. A text is split into tokens exactly if it is a spelling of them.

## Contents
- `Spells` — the spellings of tokens.
- `tokens_of_spells`, `spells_of_tokens`, `tokens_eq_some_iff` — texts are split into the tokens that
  they spell.
- `spells_quote` — the written form of a text.
-/

namespace RowStream.Json

/-! ## The spellings of tokens -/

/-- The tokens of a single character. -/
def mark? : Char → Option Token
  | '[' => some .openArray
  | ']' => some .closeArray
  | '\x7b' => some .openObject
  | '\x7d' => some .closeObject
  | ':' => some .colon
  | ',' => some .comma
  | _ => none

/-- The spellings of tokens. -/
inductive Spells : List Token → List Char → Prop where
  /-- Nothing is spelled by nothing. -/
  | nil : Spells [] []
  /-- A blank may stand before every token and after the last one. -/
  | blank {c : Char} {ts : List Token} {cs : List Char} : isBlank c = true → Spells ts cs →
      Spells ts (c :: cs)
  /-- A bracket, a brace, a colon or a comma. -/
  | mark {c : Char} {t : Token} {ts : List Token} {cs : List Char} : mark? c = some t →
      Spells ts cs → Spells (t :: ts) (c :: cs)
  /-- The value `null`. -/
  | null {ts : List Token} {cs : List Char} : Spells ts cs →
      Spells (.value .null :: ts) ('n' :: 'u' :: 'l' :: 'l' :: cs)
  /-- The truth value `true`. -/
  | true {ts : List Token} {cs : List Char} : Spells ts cs →
      Spells (.value (.bool true) :: ts) ('t' :: 'r' :: 'u' :: 'e' :: cs)
  /-- The truth value `false`. -/
  | false {ts : List Token} {cs : List Char} : Spells ts cs →
      Spells (.value (.bool false) :: ts) ('f' :: 'a' :: 'l' :: 's' :: 'e' :: cs)
  /-- A number, with nothing after it that goes on with it. -/
  | number {v : Json} {w : List Char} {ts : List Token} {cs : List Char} : Numeral v w → Ends cs →
      Spells ts cs → Spells (.value v :: ts) (w ++ cs)
  /-- A string, in any spelling of its code units, which may denote a text or not. -/
  | string {units : List Nat} {w : List Char} {ts : List Token} {cs : List Char} :
      Spelled units w → Spells ts cs →
      Spells (.value (.string ((joinUnits units).map String.ofList)) :: ts) ('"' :: (w ++ '"' :: cs))

theorem token_of_mark {c : Char} {t : Token} (h : mark? c = some t) (cs : List Char) :
    token (c :: cs) = some (t, cs) := by
  unfold mark? at h
  split at h <;> cases h <;> rfl

theorem not_isBlank_of_mark {c : Char} {t : Token} (h : mark? c = some t) : isBlank c = false := by
  unfold mark? at h
  split at h <;> cases h <;> rfl

/-- A number begins with a digit or a minus sign. -/
theorem Numeral.exists_head {v : Json} {w : List Char} (h : Numeral v w) :
    ∃ c cs, w = c :: cs ∧ (c.isDigit = true ∨ c = '-') := by
  cases h with
  | integer i =>
    cases i with
    | ofNat n =>
      show ∃ c cs, (toString n).toList = c :: cs ∧ _
      rw [toList_toString_nat]
      obtain ⟨c, cs, hdigits⟩ := List.exists_cons_of_ne_nil (natural_toDigits n).ne_nil
      refine ⟨c, cs, hdigits, .inl ((natural_toDigits n).isDigit c ?_)⟩
      rw [hdigits]
      exact List.mem_cons_self
    | negSucc n => exact ⟨'-', _, toList_toString_negSucc n, .inr rfl⟩
  | negativeZero => exact ⟨'-', _, rfl, .inr rfl⟩
  | @real sign ds f e hsign hds =>
    rcases hsign with rfl | rfl
    · obtain ⟨c, cs, rfl⟩ := List.exists_cons_of_ne_nil hds.ne_nil
      exact ⟨c, _, rfl, .inl (hds.isDigit c List.mem_cons_self)⟩
    · exact ⟨'-', _, rfl, .inr rfl⟩

/-- What begins with a digit or a minus sign is a number. -/
theorem token_of_head {c : Char} (h : c.isDigit = true ∨ c = '-') (cs : List Char) :
    token (c :: cs) = (number (c :: cs)).map fun found => (.value found.1, found.2) := by
  unfold token
  split
  case h_11 => rfl
  all_goals
    rename_i heq
    cases heq
    exact absurd h (by decide)

theorem not_isBlank_of_head {c : Char} (h : c.isDigit = true ∨ c = '-') : isBlank c = false := by
  cases hblank : isBlank c with
  | false => rfl
  | true =>
    simp only [isBlank, Bool.or_eq_true, beq_iff_eq] at hblank
    obtain ((rfl | rfl) | rfl) | rfl := hblank <;> exact absurd h (by decide)

/-! ## Texts are split into the tokens that they spell -/

theorem tokens_blank {c : Char} (h : isBlank c = true) (cs : List Char) :
    tokens (c :: cs) = tokens cs := by
  rw [tokens, if_pos h]

/-- A token and the tokens after it. -/
theorem tokens_of_token {c : Char} {cs rest : List Char} {t : Token} {ts : List Token}
    (hblank : isBlank c = false) (htoken : token (c :: cs) = some (t, rest))
    (hrest : tokens rest = some ts) : tokens (c :: cs) = some (t :: ts) := by
  rw [tokens, if_neg (by simp [hblank])]
  split
  · rename_i hnone
    rw [htoken] at hnone
    cases hnone
  · rename_i t' rest' hsome
    rw [htoken] at hsome
    cases hsome
    rw [hrest]
    rfl

/-- A spelling is split into its tokens. -/
theorem tokens_of_spells {ts : List Token} {cs : List Char} (h : Spells ts cs) :
    tokens cs = some ts := by
  induction h with
  | nil => rw [tokens]
  | @blank c ts cs hblank _ ih => rw [tokens_blank hblank, ih]
  | @mark c t ts cs hmark _ ih =>
    exact tokens_of_token (not_isBlank_of_mark hmark) (token_of_mark hmark cs) ih
  | null _ ih => exact tokens_of_token rfl rfl ih
  | true _ ih => exact tokens_of_token rfl rfl ih
  | false _ ih => exact tokens_of_token rfl rfl ih
  | @number v w ts cs hw hends _ ih =>
    have hnumber := number_of_numeral hw hends
    obtain ⟨c, more, rfl, hc⟩ := hw.exists_head
    rw [List.cons_append] at hnumber ⊢
    refine tokens_of_token (not_isBlank_of_head hc) ?_ ih
    rw [token_of_head hc, hnumber]
    rfl
  | @string units w ts cs hw _ ih =>
    refine tokens_of_token rfl ?_ ih
    show (codeUnits (w ++ '"' :: cs)).map _ = _
    rw [codeUnits_eq_some_iff.2 ⟨w, rfl, hw⟩]
    rfl

/-- What is split into tokens begins with a blank, or with the first of its tokens. -/
theorem tokens_cons {c : Char} {cs : List Char} {ts : List Token} (h : tokens (c :: cs) = some ts) :
    (isBlank c = true ∧ tokens cs = some ts) ∨
      ∃ t rest ts', token (c :: cs) = some (t, rest) ∧ tokens rest = some ts' ∧ ts = t :: ts' := by
  rw [tokens] at h
  by_cases hblank : isBlank c = true
  · rw [if_pos hblank] at h
    exact .inl ⟨hblank, h⟩
  · rw [if_neg hblank] at h
    split at h
    · cases h
    · rename_i t rest htoken
      obtain ⟨ts', hrest, rfl⟩ := Option.map_eq_some_iff.1 h
      exact .inr ⟨t, rest, ts', htoken, hrest, rfl⟩

/-- No token goes on with a number whose digits have ended. -/
theorem ends_of_tokens {cs : List Char} {ts : List Token} (h : tokens cs = some ts)
    (hdigit : NoDigit cs) : Ends cs := by
  have hnone : ∀ c rest, c = '.' ∨ c = 'e' ∨ c = 'E' →
      isBlank c = false ∧ token (c :: rest) = none := by
    rintro c rest (rfl | rfl | rfl) <;> exact ⟨rfl, rfl⟩
  intro c hc
  obtain ⟨rest, rfl⟩ := List.head?_eq_some_iff.1 hc
  have hletter : ¬ (c = '.' ∨ c = 'e' ∨ c = 'E') := by
    intro hletter
    obtain ⟨hblank, htoken⟩ := hnone c rest hletter
    rcases tokens_cons h with ⟨hyes, -⟩ | ⟨t, rest', ts', hsome, -⟩
    · rw [hblank] at hyes
      cases hyes
    · rw [htoken] at hsome
      cases hsome
  obtain ⟨hpoint, hsmall, hcapital⟩ : c ≠ '.' ∧ c ≠ 'e' ∧ c ≠ 'E' := by simpa using hletter
  exact ⟨hdigit c hc, hpoint, hsmall, hcapital⟩

/-- The first token and what spells the others. -/
theorem spells_of_token {cs rest : List Char} {t : Token} {ts : List Token}
    (htoken : token cs = some (t, rest)) (htokens : tokens rest = some ts) (h : Spells ts rest) :
    Spells (t :: ts) cs := by
  unfold token at htoken
  split at htoken
  case h_7 => cases htoken; exact .null h
  case h_8 => cases htoken; exact .true h
  case h_9 => cases htoken; exact .false h
  case h_10 =>
    obtain ⟨⟨units, rest'⟩, hunits, htoken⟩ := Option.map_eq_some_iff.1 htoken
    cases htoken
    obtain ⟨w, rfl, hw⟩ := codeUnits_eq_some_iff.1 hunits
    exact .string hw h
  case h_11 =>
    obtain ⟨⟨v, rest'⟩, hnumber, htoken⟩ := Option.map_eq_some_iff.1 htoken
    cases htoken
    obtain ⟨w, rfl, hw, hdigit⟩ := numeral_of_number hnumber
    exact .number hw (ends_of_tokens htokens hdigit) h
  all_goals
    cases htoken
    exact .mark rfl h

/-- What is split into tokens spells them. -/
theorem spells_of_tokens {cs : List Char} {ts : List Token} (h : tokens cs = some ts) :
    Spells ts cs := by
  induction hlength : cs.length using Nat.strongRecOn generalizing cs ts with
  | _ n ih =>
    subst hlength
    cases cs with
    | nil =>
      rw [tokens] at h
      cases h
      exact .nil
    | cons c cs =>
      rcases tokens_cons h with ⟨hblank, hcs⟩ | ⟨t, rest, ts', htoken, hrest, rfl⟩
      · exact .blank hblank (ih _ (Nat.lt_succ_self _) hcs rfl)
      · exact spells_of_token htoken hrest (ih _ (length_of_token htoken) hrest rfl)

/-- A text is split into the tokens that it spells. -/
theorem tokens_eq_some_iff {cs : List Char} {ts : List Token} :
    tokens cs = some ts ↔ Spells ts cs :=
  ⟨spells_of_tokens, tokens_of_spells⟩

/-- The written form of a text is a spelling of its token. -/
theorem spells_quote (s : String) {ts : List Token} {cs : List Char} (h : Spells ts cs) :
    Spells (.value (.string (some s)) :: ts) (quote (some s) ++ cs) := by
  have hstring := Spells.string (spelled_escape s.toList) h
  rw [joinUnits_map_toNat, Option.map_some, String.ofList_toList] at hstring
  show Spells _ ('"' :: (s.toList.flatMap escape ++ ['"'] ++ cs))
  rw [List.append_assoc]
  exact hstring

end RowStream.Json
