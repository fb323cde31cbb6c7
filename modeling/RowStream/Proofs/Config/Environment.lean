import Mathlib.Data.List.Forall2
import Mathlib.Data.List.TakeWhile
import RowStream.Config.Environment

/-!
# `RowStream.Proofs.Config.Environment` — which texts set what

The settings come from three texts, each of which may be missing. What a text stands for is said here
without reading it: a size is an optional plus sign and digits, and nothing else, and a strategy is one
of its names between blanks, where capitals do not matter. A text of another form stands for nothing,
and the default is kept.

## Contents
- `trimList_padded`, `trimList_eq` — what is left of a text without the blanks at its ends.
- `Environment.Denotes`, `readSize?_eq_some_iff` — the texts of sizes.
- `Strategy.Named`, `ofText_eq_ok_iff`, `ofText_eq_error` — the texts of strategies, and all others.
- `Strategy.CasedAs`, `named_of_casedAs` — a name in any mixture of small letters and capitals.
- `Overlaid`, `ofEnvironment_overlaid` — the settings.
-/

namespace RowStream

/-! ## Blanks at the ends -/

namespace Text

/-- A trimmed text is what stands between the blanks at the ends. -/
theorem trimList_padded (cs : List Char) : ∃ lead trail, cs = lead ++ trimList cs ++ trail ∧
    ∀ c ∈ lead ++ trail, isBlank c = true := by
  have hback : (cs.dropWhile isBlank).reverse.dropWhile isBlank = (trimList cs).reverse := by
    unfold trimList
    rw [List.reverse_reverse]
  have hrest : cs.dropWhile isBlank =
      trimList cs ++ ((cs.dropWhile isBlank).reverse.takeWhile isBlank).reverse := by
    have hsplit := congrArg List.reverse
      (List.takeWhile_append_dropWhile (p := isBlank) (l := (cs.dropWhile isBlank).reverse))
    rw [hback, List.reverse_append, List.reverse_reverse, List.reverse_reverse] at hsplit
    exact hsplit.symm
  refine ⟨cs.takeWhile isBlank, ((cs.dropWhile isBlank).reverse.takeWhile isBlank).reverse, ?_, ?_⟩
  · rw [List.append_assoc, ← hrest, List.takeWhile_append_dropWhile]
  · intro c hc
    rcases List.mem_append.1 hc with hlead | htrail
    · exact List.all_eq_true.1 List.all_takeWhile c hlead
    · exact List.all_eq_true.1 List.all_takeWhile c (List.mem_reverse.1 htrail)

/-- Characters without a blank among them are left, whatever blanks stand around them. -/
theorem trimList_eq {lead core trail : List Char} (hends : ∀ c ∈ lead ++ trail, isBlank c = true)
    (hcore : ∀ c ∈ core, isBlank c = false) : trimList (lead ++ core ++ trail) = core := by
  have hlead : ∀ c ∈ lead, isBlank c = true := fun c hc => hends c (List.mem_append_left _ hc)
  have htrail : ∀ c ∈ trail, isBlank c = true := fun c hc => hends c (List.mem_append_right _ hc)
  unfold trimList
  rw [List.append_assoc, List.dropWhile_append_of_pos hlead]
  cases core with
  | nil =>
    rw [List.nil_append, List.dropWhile_eq_nil_iff.2 htrail]
    rfl
  | cons c core =>
    have hfirst : ¬ isBlank c = true := by simp [hcore c List.mem_cons_self]
    rw [List.cons_append, List.dropWhile_cons_of_neg hfirst, ← List.cons_append,
      List.reverse_append,
      List.dropWhile_append_of_pos fun d hd => htrail d (List.mem_reverse.1 hd)]
    -- the last character of the core is no blank either
    have hkept : (c :: core).reverse.dropWhile isBlank = (c :: core).reverse := by
      apply List.dropWhile_eq_self_iff.2
      intro hlength hblank
      have hlast := hcore _ (List.mem_reverse.1 (List.getElem_mem hlength))
      rw [hlast] at hblank
      cases hblank
    rw [hkept, List.reverse_reverse]

/-- A blank has no small letter. -/
theorem toLower_of_isBlank {c : Char} (h : isBlank c = true) : c.toLower = c := by
  have hcapital : ¬ (c.val ≥ 'A'.val ∧ c.val ≤ 'Z'.val) := by
    intro hc
    simp only [ge_iff_le, UInt32.le_iff_toNat_le] at hc
    have hlow : 65 ≤ c.toNat := hc.1
    have hhigh : c.toNat ≤ 90 := hc.2
    simp only [isBlank, inRanges, blankRanges, List.any_cons, List.any_nil, Bool.or_eq_true,
      Bool.and_eq_true, decide_eq_true_eq, Bool.false_eq_true, or_false] at h
    omega
  unfold Char.toLower
  rw [dif_neg hcapital]

end Text

/-! ## Sizes -/

/-- The digits of a word, read from the left. -/
theorem Word.digitsValue?_eq_some_iff {digits : List Char} {n : Nat} :
    Word.digitsValue? digits = some n ↔
      (∀ c ∈ digits, c.isDigit = true) ∧ Nat.ofDigitChars 10 digits 0 = n := by
  unfold Word.digitsValue? Nat.ofDigitChars
  generalize 0 = before
  induction digits generalizing before with
  | nil => simp
  | cons c digits ih =>
    rw [List.foldlM_cons, List.foldl_cons]
    by_cases hc : c.isDigit = true
    · simp only [hc, if_true, Option.bind_eq_bind, Option.bind_some]
      rw [ih]
      simp [hc]
    · simp [hc]

namespace Environment

/-- The text is an optional plus sign and one or more ASCII digits, and the digits denote `n`, which is
below the 64th power of two. -/
def Denotes (s : String) (n : Nat) : Prop :=
  ∃ sign digits, s.toList = sign ++ digits ∧ (sign = [] ∨ sign = ['+']) ∧ digits ≠ [] ∧
    (∀ c ∈ digits, c.isDigit = true) ∧ Nat.ofDigitChars 10 digits 0 = n ∧ n < Word.limit

/-- What is read of digits. -/
theorem ofDigits?_eq_some_iff {digits : List Char} {n : Nat} :
    Word.ofDigits? digits = some n ↔ digits ≠ [] ∧ (∀ c ∈ digits, c.isDigit = true) ∧
      Nat.ofDigitChars 10 digits 0 = n ∧ n < Word.limit := by
  unfold Word.ofDigits?
  cases digits with
  | nil => simp
  | cons c digits =>
    rw [if_neg (by simp), Option.filter_eq_some_iff, Word.digitsValue?_eq_some_iff]
    simp [and_assoc]

/-- A size is read from the texts that denote it, and from no other. -/
theorem readSize?_eq_some_iff {s : String} {n : Nat} : readSize? s = some n ↔ Denotes s n := by
  unfold readSize? Denotes
  constructor
  · intro h
    split at h
    · rename_i digits hs
      exact ⟨['+'], digits, hs, .inr rfl, ofDigits?_eq_some_iff.1 h⟩
    · exact ⟨[], s.toList, rfl, .inl rfl, ofDigits?_eq_some_iff.1 h⟩
  · rintro ⟨sign, digits, hs, rfl | rfl, hdigits⟩
    · rw [hs, List.nil_append]
      split
      · -- a plus sign is no digit
        rename_i rest
        exact absurd (hdigits.2.1 '+' List.mem_cons_self) (by decide)
      · exact ofDigits?_eq_some_iff.2 hdigits
    · rw [hs]
      exact ofDigits?_eq_some_iff.2 hdigits

end Environment

/-! ## Strategies -/

namespace Strategy

/-- The name and the shorter names. -/
def names (strategy : Strategy) : List String := strategy.name :: strategy.aliases

/-- The text is one of the names between blanks, up to capitals among its ASCII letters. -/
def Named (s : String) (strategy : Strategy) : Prop :=
  ∃ lead key trail, s.toList = lead ++ key ++ trail ∧
    (∀ c ∈ lead ++ trail, Text.isBlank c = true) ∧
    ∃ name ∈ strategy.names, key.map Char.toLower = name.toList

/-- There is no blank in a name. -/
theorem not_isBlank_of_name {strategy : Strategy} {name : String} (h : name ∈ strategy.names) :
    ∀ c ∈ name.toList, Text.isBlank c = false := by
  have hall : ∀ strategy ∈ all, ∀ name ∈ strategy.names,
      name.toList.all (fun c => !Text.isBlank c) = true := by decide
  intro c hc
  have hblank := List.all_eq_true.1 (hall strategy (by cases strategy <;> decide) name h) c hc
  rw [Bool.not_eq_true'] at hblank
  exact hblank

/-- The strategy that is found has the name, and no name is that of two strategies. -/
theorem find?_eq_some_iff (key : String) (strategy : Strategy) :
    (all.find? fun other => (other.name :: other.aliases).contains key) = some strategy ↔
      key ∈ strategy.names := by
  constructor
  · intro h
    have hcontains := List.find?_some h
    exact List.contains_iff_mem.1 hcontains
  · intro h
    have hall : ∀ strategy ∈ all, ∀ name ∈ strategy.names,
        (all.find? fun other => (other.name :: other.aliases).contains name) = some strategy := by
      decide
    exact hall strategy (by cases strategy <;> decide) key h

/-- What is compared with the names is the text between the blanks in small letters. -/
theorem key_eq {s name : String} {lead key trail : List Char} (hs : s.toList = lead ++ key ++ trail)
    (hends : ∀ c ∈ lead ++ trail, Text.isBlank c = true)
    (hname : ∀ c ∈ name.toList, Text.isBlank c = false) (hkey : key.map Char.toLower = name.toList) :
    Text.lowerAscii (Text.trim s) = name := by
  have hcore : ∀ c ∈ key, Text.isBlank c = false := by
    intro c hc
    cases hblank : Text.isBlank c with
    | false => rfl
    | true =>
      have hmem : c.toLower ∈ name.toList := by
        rw [← hkey]
        exact List.mem_map_of_mem hc
      rw [Text.toLower_of_isBlank hblank] at hmem
      rw [hname c hmem] at hblank
      exact hblank.symm
  unfold Text.lowerAscii Text.trim
  rw [hs, Text.trimList_eq hends hcore, String.toList_ofList, hkey, String.ofList_toList]

/-- A strategy is read if the text has one of its names between the blanks, in small letters. -/
theorem ofText_eq_ok_iff_mem {s : String} {strategy : Strategy} :
    ofText s = .ok strategy ↔ Text.lowerAscii (Text.trim s) ∈ strategy.names := by
  rw [← find?_eq_some_iff]
  unfold ofText
  generalize Text.lowerAscii (Text.trim s) = key
  dsimp only
  cases all.find? fun other => (other.name :: other.aliases).contains key with
  | none => exact ⟨nofun, nofun⟩
  | some other => simp only [Except.ok.injEq, Option.some.injEq]

/-- A strategy is read from the texts that name it, and from no other. -/
theorem ofText_eq_ok_iff {s : String} {strategy : Strategy} :
    ofText s = .ok strategy ↔ Named s strategy := by
  rw [ofText_eq_ok_iff_mem]
  constructor
  · intro h
    obtain ⟨lead, trail, hs, hends⟩ := Text.trimList_padded s.toList
    refine ⟨lead, Text.trimList s.toList, trail, hs, hends, _, h, ?_⟩
    unfold Text.lowerAscii Text.trim
    rw [String.toList_ofList, String.toList_ofList]
  · rintro ⟨lead, key, trail, hs, hends, name, hname, hkey⟩
    rw [key_eq hs hends (not_isBlank_of_name hname) hkey]
    exact hname

/-- A text that names no strategy is refused, and the refusal shows it in small letters and without
the blanks at its ends. -/
theorem ofText_eq_error {s : String} (h : ∀ strategy, ¬ Named s strategy) :
    ofText s = .error (.config (.unknownStrategy (Text.lowerAscii (Text.trim s)))) := by
  have hnone : ∀ strategy, ofText s ≠ .ok strategy := fun strategy hread =>
    h strategy (ofText_eq_ok_iff.1 hread)
  unfold ofText at hnone ⊢
  generalize Text.lowerAscii (Text.trim s) = key at hnone ⊢
  cases hfound : all.find? fun other => (other.name :: other.aliases).contains key with
  | none => simp only [hfound]
  | some strategy =>
    simp only [hfound] at hnone
    exact absurd rfl (hnone strategy)

/-- The characters are those of the name, each as it is or as a capital. -/
def CasedAs (key : List Char) (name : String) : Prop :=
  List.Forall₂ (fun c d => c = d ∨ c = d.toUpper) key name.toList

/-- In small letters, a name in any mixture of small letters and capitals is the name. -/
theorem map_toLower_of_casedAs {strategy : Strategy} {key : List Char}
    (h : CasedAs key strategy.name) : key.map Char.toLower = strategy.name.toList := by
  have hall : ∀ strategy ∈ all, strategy.name.toList.all
      (fun d => d.toLower = d ∧ d.toUpper.toLower = d) = true := by decide
  have hname : ∀ d ∈ strategy.name.toList, d.toLower = d ∧ d.toUpper.toLower = d := by
    intro d hd
    exact of_decide_eq_true (List.all_eq_true.1 (hall strategy (by cases strategy <;> decide)) d hd)
  unfold CasedAs at h
  revert hname
  generalize strategy.name.toList = name at h ⊢
  intro hname
  induction h with
  | nil => rfl
  | @cons c d key name hc _ ih =>
    have hd := hname d List.mem_cons_self
    have hlower : c.toLower = d := by
      rcases hc with rfl | rfl
      · exact hd.1
      · exact hd.2
    rw [List.map_cons, hlower, ih fun d hd => hname d (List.mem_cons_of_mem _ hd)]

/-- Every padding and every casing of its name names a strategy. -/
theorem named_of_casedAs {strategy : Strategy} {lead key trail : List Char}
    (hends : ∀ c ∈ lead ++ trail, Text.isBlank c = true) (hkey : CasedAs key strategy.name) :
    Named (String.ofList (lead ++ key ++ trail)) strategy :=
  ⟨lead, key, trail, String.toList_ofList, hends, strategy.name, List.mem_cons_self,
    map_toLower_of_casedAs hkey⟩

end Strategy

/-! ## The settings -/

/-- A setting is what its text denotes, and the default if there is no text or none that denotes
anything. -/
structure Overlaid {α : Type} (text : Option String) (Denotes : String → α → Prop)
    (default setting : α) : Prop where
  /-- A text that denotes something decides. -/
  of_denotes : ∀ s a, text = some s → Denotes s a → setting = a
  /-- Otherwise, the default is kept. -/
  eq_default : (∀ s a, text = some s → ¬ Denotes s a) → setting = default

/-- A setting that is read where it can be. -/
theorem overlaid_of_read {α : Type} {Denotes : String → α → Prop} {read : String → Option α}
    (h : ∀ s a, read s = some a ↔ Denotes s a) (text : Option String) (default : α) :
    Overlaid text Denotes default ((text.bind read).getD default) := by
  constructor
  · intro s a htext hdenotes
    rw [htext, Option.bind_some, (h s a).2 hdenotes, Option.getD_some]
  · intro hnone
    cases hread : text.bind read with
    | none => rfl
    | some a =>
      obtain ⟨s, htext, hs⟩ := Option.bind_eq_some_iff.1 hread
      exact absurd ((h s a).1 hs) (hnone s a htext)

/-- Each setting is decided by the text of its own variable: a size by an optional plus sign and digits
of a number below the 64th power of two, the strategy by one of its names between blanks, whatever the
case of its ASCII letters. Any other text leaves the default in place. So every padding and every
casing of the name of a strategy is read as the strategy, and every text that names none is refused. -/
theorem ofEnvironment_overlaid (env : Environment) :
    Overlaid env.joinBufferBytes Environment.Denotes 262144
        (Config.ofEnvironment env).joinBufferBytes ∧
      Overlaid env.strategy Strategy.Named .blockNestedLoop (Config.ofEnvironment env).strategy ∧
      Overlaid env.scanPageRows Environment.Denotes 64 (Config.ofEnvironment env).scanPageRows ∧
      (∀ (strategy : Strategy) (lead key trail : List Char),
        (∀ c ∈ lead ++ trail, Text.isBlank c = true) → Strategy.CasedAs key strategy.name →
          Strategy.ofText (String.ofList (lead ++ key ++ trail)) = .ok strategy) ∧
      ∀ s : String, (∀ strategy, ¬ Strategy.Named s strategy) →
        Strategy.ofText s =
          .error (.config (.unknownStrategy (Text.lowerAscii (Text.trim s)))) := by
  have hstrategy : ∀ (s : String) (strategy : Strategy),
      (Strategy.ofText s).toOption = some strategy ↔ Strategy.Named s strategy := by
    intro s strategy
    rw [← Strategy.ofText_eq_ok_iff]
    cases Strategy.ofText s <;> simp [Except.toOption]
  refine ⟨?_, ?_, ?_, ?_, ?_⟩
  · exact overlaid_of_read (fun _ _ => Environment.readSize?_eq_some_iff) _ _
  · exact overlaid_of_read hstrategy _ _
  · exact overlaid_of_read (fun _ _ => Environment.readSize?_eq_some_iff) _ _
  · intro strategy lead key trail hends hkey
    exact Strategy.ofText_eq_ok_iff.2 (Strategy.named_of_casedAs hends hkey)
  · intro s hnone
    exact Strategy.ofText_eq_error hnone

/-- A sign and leading zeros, blanks and capitals, and a number that is one too large. -/
example : Config.ofEnvironment ⟨some "+0042", some "\u3000HaSh\u0085", some "18446744073709551616"⟩ =
    ⟨42, .hash, 64⟩ := by
  decide

end RowStream
