import RowStream.Json.Parse
import RowStream.Proofs.Json.Spelling

/-!
# `RowStream.Proofs.Json.Grammar` — the texts that are read as a JSON value

A value has one list of tokens. A text is read as a value exactly if it spells these tokens, and the
compact text of a value does.

## Contents
- `tokensOf` — the tokens of a value.
- `value_tokensOf`, `eq_of_value` — the tokens of a value are read as that value, and no others.
- `parse_eq_some_iff` — the texts that are read as a value.
- `Plain`, `Renders`, `parse_text` — the compact text among them.
-/

namespace RowStream.Json

/-! ## The tokens of a value -/

mutual

/-- The tokens of a value. -/
def tokensOf : Json → List Token
  | array [] => [.openArray, .closeArray]
  | array (v :: vs) => .openArray :: (tokensOf v ++ tokensOfElements vs)
  | object [] => [.openObject, .closeObject]
  | object ((k, v) :: ms) =>
    .openObject :: .value (.string k) :: .colon :: (tokensOf v ++ tokensOfMembers ms)
  | v => [.value v]

/-- The tokens of the elements after the first, and of the closing bracket. -/
def tokensOfElements : List Json → List Token
  | [] => [.closeArray]
  | v :: vs => .comma :: (tokensOf v ++ tokensOfElements vs)

/-- The tokens of the members after the first, and of the closing brace. -/
def tokensOfMembers : List (Option String × Json) → List Token
  | [] => [.closeObject]
  | (k, v) :: ms => .comma :: .value (.string k) :: .colon :: (tokensOf v ++ tokensOfMembers ms)

end

/-! ## The tokens of a value are read as that value -/

/-- The tokens of a value begin with no closing mark. -/
theorem tokensOf_ne (v : Json) (ts rest : List Token) :
    tokensOf v ++ ts ≠ .closeArray :: rest ∧ tokensOf v ++ ts ≠ .closeObject :: rest := by
  cases v with
  | array vs => cases vs <;> exact ⟨nofun, nofun⟩
  | object ms => cases ms <;> exact ⟨nofun, nofun⟩
  | _ => exact ⟨nofun, nofun⟩

theorem one_le_length_tokensOfElements (vs : List Json) : 1 ≤ (tokensOfElements vs).length := by
  cases vs <;> exact Nat.le_add_left 1 _

theorem one_le_length_tokensOfMembers (ms : List (Option String × Json)) :
    1 ≤ (tokensOfMembers ms).length := by
  cases ms <;> exact Nat.le_add_left 1 _

mutual

/-- The tokens of a value are read as that value, if there is a call for each of them. -/
theorem value_tokensOf (v : Json) (depth : Nat) (hdepth : (tokensOf v).length ≤ depth)
    (ts : List Token) : value depth (tokensOf v ++ ts) = some (v, ts) := by
  cases v with
  | array vs =>
    cases vs with
    | nil => exact value.eq_2 ..
    | cons v vs =>
      simp only [tokensOf, List.length_cons, List.length_append] at hdepth
      obtain ⟨depth, rfl⟩ := Nat.exists_eq_add_of_le' (Nat.le_of_add_left_le hdepth)
      have hall := elements_tokensOf v vs depth (by omega) ts
      simp only [tokensOf, List.cons_append, List.append_assoc]
      rw [value.eq_3 _ _ fun rest => (tokensOf_ne v _ rest).1, hall]
      rfl
  | object ms =>
    cases ms with
    | nil => exact value.eq_4 ..
    | cons m ms =>
      obtain ⟨k, v⟩ := m
      simp only [tokensOf, List.length_cons, List.length_append] at hdepth
      obtain ⟨depth, rfl⟩ := Nat.exists_eq_add_of_le' (Nat.le_of_add_left_le hdepth)
      have hall := members_tokensOf k v ms depth (by omega) ts
      simp only [tokensOf, List.cons_append, List.append_assoc]
      rw [value.eq_5 _ _ (by rintro rest ⟨⟩), hall]
      rfl
  | _ => exact value.eq_1 ..
termination_by depth

/-- The tokens of elements are read as these elements. -/
theorem elements_tokensOf (v : Json) (vs : List Json) (depth : Nat)
    (hdepth : (tokensOf v).length + (tokensOfElements vs).length ≤ depth) (ts : List Token) :
    elements depth (tokensOf v ++ (tokensOfElements vs ++ ts)) = some (v :: vs, ts) := by
  have hone := one_le_length_tokensOfElements vs
  obtain ⟨depth, rfl⟩ := Nat.exists_eq_add_of_le' (show 1 ≤ depth by omega)
  rw [elements, value_tokensOf v depth (by omega)]
  cases vs with
  | nil => rfl
  | cons w vs =>
    simp only [tokensOfElements, List.length_cons, List.length_append] at hdepth
    have hrest := elements_tokensOf w vs depth (by omega) ts
    simp only [tokensOfElements, List.cons_append, List.append_assoc]
    show (elements depth _).bind _ = _
    rw [hrest]
    rfl
termination_by depth

/-- The tokens of members are read as these members. -/
theorem members_tokensOf (k : Option String) (v : Json) (ms : List (Option String × Json))
    (depth : Nat) (hdepth : (tokensOf v).length + (tokensOfMembers ms).length ≤ depth)
    (ts : List Token) :
    members depth (.value (.string k) :: .colon :: (tokensOf v ++ (tokensOfMembers ms ++ ts))) =
      some ((k, v) :: ms, ts) := by
  have hone := one_le_length_tokensOfMembers ms
  obtain ⟨depth, rfl⟩ := Nat.exists_eq_add_of_le' (show 1 ≤ depth by omega)
  rw [members, value_tokensOf v depth (by omega)]
  cases ms with
  | nil => rfl
  | cons m ms =>
    obtain ⟨l, w⟩ := m
    simp only [tokensOfMembers, List.length_cons, List.length_append] at hdepth
    have hrest := members_tokensOf l w ms depth (by omega) ts
    simp only [tokensOfMembers, List.cons_append, List.append_assoc]
    show (members depth _).bind _ = _
    rw [hrest]
    rfl
termination_by depth

end

/-! ## No other tokens are read as that value -/

/-- A token has no parts. -/
def Token.Leaf : Token → Prop
  | .value v => tokensOf v = [.value v]
  | _ => True

/-- The tokens that a text spells have no parts. -/
theorem leaf_of_spells {ts : List Token} {cs : List Char} (h : Spells ts cs) :
    ∀ t ∈ ts, t.Leaf := by
  induction h with
  | nil => exact nofun
  | blank _ _ ih => exact ih
  | @mark c t ts cs hmark _ ih =>
    refine List.forall_mem_cons.2 ⟨?_, ih⟩
    unfold mark? at hmark
    split at hmark <;> cases hmark <;> trivial
  | null _ ih => exact List.forall_mem_cons.2 ⟨rfl, ih⟩
  | true _ ih => exact List.forall_mem_cons.2 ⟨rfl, ih⟩
  | false _ ih => exact List.forall_mem_cons.2 ⟨rfl, ih⟩
  | number hw _ _ ih =>
    refine List.forall_mem_cons.2 ⟨?_, ih⟩
    cases hw <;> rfl
  | string _ _ ih => exact List.forall_mem_cons.2 ⟨rfl, ih⟩

mutual

/-- What is read as a value are its tokens. -/
theorem eq_of_value {depth : Nat} {ts rest : List Token} {v : Json} (hts : ∀ t ∈ ts, t.Leaf)
    (h : value depth ts = some (v, rest)) : ts = tokensOf v ++ rest := by
  unfold value at h
  split at h
  · cases h
    have hleaf : tokensOf v = [.value v] := hts _ List.mem_cons_self
    rw [hleaf]
    rfl
  · cases h
    rfl
  · obtain ⟨⟨vs, rest'⟩, hvs, h⟩ := Option.bind_eq_some_iff.1 h
    cases h
    obtain ⟨w, ws, rfl, rfl⟩ := eq_of_elements (List.forall_mem_cons.1 hts).2 hvs
    simp only [tokensOf, List.cons_append, List.append_assoc]
  · cases h
    rfl
  · obtain ⟨⟨ms, rest'⟩, hms, h⟩ := Option.bind_eq_some_iff.1 h
    cases h
    obtain ⟨k, w, ls, rfl, rfl⟩ := eq_of_members (List.forall_mem_cons.1 hts).2 hms
    simp only [tokensOf, List.cons_append, List.append_assoc]
  · cases h
termination_by depth

/-- What is read as elements are their tokens. -/
theorem eq_of_elements {depth : Nat} {ts rest : List Token} {vs : List Json}
    (hts : ∀ t ∈ ts, t.Leaf) (h : elements depth ts = some (vs, rest)) :
    ∃ v ws, vs = v :: ws ∧ ts = tokensOf v ++ (tokensOfElements ws ++ rest) := by
  cases depth with
  | zero =>
    rw [elements] at h
    cases h
  | succ depth =>
    rw [elements] at h
    obtain ⟨⟨v, after⟩, hv, hmore⟩ := Option.bind_eq_some_iff.1 h
    obtain rfl := eq_of_value hts hv
    dsimp only at hmore
    split at hmore
    · cases hmore
      exact ⟨v, [], rfl, rfl⟩
    · obtain ⟨⟨ws, rest'⟩, hws, hmore⟩ := Option.bind_eq_some_iff.1 hmore
      cases hmore
      have hafter := (List.forall_mem_cons.1 (List.forall_mem_append.1 hts).2).2
      obtain ⟨w, ws, rfl, rfl⟩ := eq_of_elements hafter hws
      refine ⟨v, w :: ws, rfl, ?_⟩
      simp only [tokensOfElements, List.cons_append, List.append_assoc]
    · cases hmore
termination_by depth

/-- What is read as members are their tokens. -/
theorem eq_of_members {depth : Nat} {ts rest : List Token} {ms : List (Option String × Json)}
    (hts : ∀ t ∈ ts, t.Leaf) (h : members depth ts = some (ms, rest)) :
    ∃ k v ls, ms = (k, v) :: ls ∧
      ts = .value (.string k) :: .colon :: (tokensOf v ++ (tokensOfMembers ls ++ rest)) := by
  unfold members at h
  split at h
  · rename_i depth k ts
    obtain ⟨⟨v, after⟩, hv, hmore⟩ := Option.bind_eq_some_iff.1 h
    have hvalue := (List.forall_mem_cons.1 (List.forall_mem_cons.1 hts).2).2
    obtain rfl := eq_of_value hvalue hv
    dsimp only at hmore
    split at hmore
    · cases hmore
      exact ⟨k, v, [], rfl, rfl⟩
    · obtain ⟨⟨ls, rest'⟩, hls, hmore⟩ := Option.bind_eq_some_iff.1 hmore
      cases hmore
      have hafter := (List.forall_mem_cons.1 (List.forall_mem_append.1 hvalue).2).2
      obtain ⟨l, w, ls, rfl, rfl⟩ := eq_of_members hafter hls
      refine ⟨k, v, (l, w) :: ls, rfl, ?_⟩
      simp only [tokensOfMembers, List.cons_append, List.append_assoc]
    · cases hmore
  · cases h
termination_by depth

end

/-- A text is read as a value exactly if it spells its tokens. -/
theorem parse_eq_some_iff {s : String} {v : Json} :
    parse s = some v ↔ Spells (tokensOf v) s.toList := by
  unfold parse
  constructor
  · intro h
    obtain ⟨ts, htokens, h⟩ := Option.bind_eq_some_iff.1 h
    split at h
    · rename_i found hvalue
      cases h
      have hspells := tokens_eq_some_iff.1 htokens
      have hts := eq_of_value (leaf_of_spells hspells) hvalue
      rw [List.append_nil] at hts
      rw [← hts]
      exact hspells
    · cases h
  · intro h
    have hvalue := value_tokensOf v (2 * (tokensOf v).length) (by omega) []
    rw [List.append_nil] at hvalue
    rw [tokens_eq_some_iff.2 h, Option.bind_eq_bind, Option.bind_some, hvalue]

/-! ## The compact text -/

/-- A value whose numbers are integers and whose strings denote texts. -/
inductive Plain : Json → Prop where
  /-- The value `null`. -/
  | null : Plain .null
  /-- A truth value. -/
  | bool (b : Bool) : Plain (.bool b)
  /-- An integer. -/
  | integer (i : Int) : Plain (.integer i)
  /-- A string that denotes a text. -/
  | string (s : String) : Plain (.string (some s))
  /-- An array of such values. -/
  | array {vs : List Json} : (∀ v ∈ vs, Plain v) → Plain (.array vs)
  /-- An object of such members. -/
  | object {ms : List (Option String × Json)} : (∀ m ∈ ms, m.1.isSome) →
      (∀ m ∈ ms, Plain m.2) → Plain (.object ms)

theorem ends_renderElements (vs : List Json) (cs : List Char) : Ends (renderElements vs ++ cs) := by
  cases vs <;> (rintro c ⟨⟩; decide)

theorem ends_renderMembers (ms : List (Option String × Json)) (cs : List Char) :
    Ends (renderMembers ms ++ cs) := by
  cases ms <;> (rintro c ⟨⟩; decide)

/-- The compact text of the value is a spelling of its tokens, whatever follows. -/
def Renders (v : Json) : Prop :=
  ∀ {ts : List Token} {cs : List Char}, Ends cs → Spells ts cs →
    Spells (tokensOf v ++ ts) (render v ++ cs)

/-- The text of elements is a spelling of their tokens. -/
theorem spells_elements {v : Json} {vs : List Json} (hvs : ∀ w ∈ v :: vs, Renders w)
    {ts : List Token} {cs : List Char} (h : Spells ts cs) :
    Spells (tokensOf v ++ (tokensOfElements vs ++ ts)) (render v ++ (renderElements vs ++ cs)) := by
  induction vs generalizing v with
  | nil => exact hvs v List.mem_cons_self (ends_renderElements [] cs) (.mark rfl h)
  | cons w vs ih =>
    apply hvs v List.mem_cons_self (ends_renderElements _ cs)
    simp only [tokensOfElements, renderElements, List.cons_append, List.append_assoc]
    exact .mark rfl (ih (List.forall_mem_cons.1 hvs).2)

/-- The text of members is a spelling of their tokens. -/
theorem spells_members {m : Option String × Json} {ms : List (Option String × Json)}
    (hnames : ∀ l ∈ m :: ms, l.1.isSome) (hms : ∀ l ∈ m :: ms, Renders l.2)
    {ts : List Token} {cs : List Char} (h : Spells ts cs) :
    Spells (.value (.string m.1) :: .colon :: (tokensOf m.2 ++ (tokensOfMembers ms ++ ts)))
      (quote m.1 ++ ':' :: (render m.2 ++ (renderMembers ms ++ cs))) := by
  induction ms generalizing m with
  | nil =>
    obtain ⟨name, hname⟩ := Option.isSome_iff_exists.1 (hnames m List.mem_cons_self)
    rw [hname]
    apply spells_quote name
    apply Spells.mark rfl
    exact hms m List.mem_cons_self (ends_renderMembers [] cs) (.mark rfl h)
  | cons l ms ih =>
    obtain ⟨name, hname⟩ := Option.isSome_iff_exists.1 (hnames m List.mem_cons_self)
    rw [hname]
    apply spells_quote name
    apply Spells.mark rfl
    apply hms m List.mem_cons_self (ends_renderMembers _ cs)
    simp only [tokensOfMembers, renderMembers, List.cons_append, List.append_assoc]
    exact .mark rfl (ih (List.forall_mem_cons.1 hnames).2 (List.forall_mem_cons.1 hms).2)

/-- The compact text of a plain value is a spelling of its tokens. -/
theorem renders_of_plain {v : Json} (hv : v.Plain) : Renders v := by
  induction hv with
  | null => exact fun _ h => .null h
  | bool b =>
    cases b with
    | true => exact fun _ h => .true h
    | false => exact fun _ h => .false h
  | integer i => exact fun hends h => .number (.integer i) hends h
  | string s => exact fun _ h => spells_quote s h
  | @array vs _ ih =>
    intro ts cs _ h
    cases vs with
    | nil => exact .mark rfl (.mark rfl h)
    | cons v vs =>
      simp only [tokensOf, render, List.cons_append, List.append_assoc]
      exact .mark rfl (spells_elements ih h)
  | @object ms hnames _ ih =>
    intro ts cs _ h
    cases ms with
    | nil => exact .mark rfl (.mark rfl h)
    | cons m ms =>
      simp only [tokensOf, render, List.cons_append, List.append_assoc]
      exact .mark rfl (spells_members hnames ih h)

/-- The compact text of a value is read as that value. -/
theorem parse_text {v : Json} (hv : v.Plain) : parse v.text = some v := by
  have h : Spells (tokensOf v ++ []) (render v ++ []) := renders_of_plain hv nofun .nil
  rw [List.append_nil, List.append_nil] at h
  rw [parse_eq_some_iff, text, String.toList_ofList]
  exact h

end RowStream.Json
