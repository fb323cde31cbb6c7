import Mathlib.Data.List.Nodup
import Mathlib.Data.List.Perm.Basic
import RowStream.Json.Form
import RowStream.Proofs.Json.Grammar

/-!
# `RowStream.Proofs.Json.Form` — types that are read as they are written

A form is faithful if the value that it writes is read back. Then every value of the type survives
its text, and so does every value that was read from any other text. Names and records are read from
more values than they are written as, and the laws here say which of them denote the same.

## Contents
- `Form.Faithful`, `Form.RoundTrips` — reading back values, and reading back texts.
- `word?_ofWord`, `int64?_ofInt64`, `list?_map`, `name?_eq_some_iff` — the parts of forms.
- `record?_perm`, `record?_append_others`, `record?_array` — which records are read alike.
- `Form.NamedForm`, `Form.RecordForm` — the forms of names and of records.
-/

namespace RowStream

/-! ## Faithful forms -/

namespace Form

variable {α : Type} [Form α] {InRange : α → Prop}

/-- The value that is written is read back, for all that are in range; only these are read. -/
structure Faithful (α : Type) [Form α] (InRange : α → Prop) : Prop where
  /-- What is written has integers and texts only. -/
  plain : ∀ a : α, (toJson a).Plain
  /-- It is read as the value that was written. -/
  ofJson?_toJson : ∀ a : α, InRange a → ofJson? (toJson a) = some a
  /-- What is read is in range. -/
  inRange : ∀ (v : Json) (a : α), ofJson? v = some a → InRange a

/-- Values survive their texts. -/
structure RoundTrips (α : Type) [Form α] (InRange : α → Prop) : Prop where
  /-- The text that is written for a value is read as that value. -/
  read_write : ∀ a : α, InRange a → read α (write a) = some a
  /-- A value that was read from any text is read again from the text that is written for it. -/
  reread : ∀ (text : String) (a : α), read α text = some a → InRange a ∧ read α (write a) = some a
  /-- It is then written as the same text. -/
  rewrite : ∀ (text : String) (a : α), read α text = some a →
    (read α (write a)).map write = some (write a)
  /-- A text is read exactly if it spells a JSON value, and as what that denotes. Blanks between the
  tokens and other spellings of strings make no difference. -/
  read_eq_some_iff : ∀ (text : String) (a : α), read α text = some a ↔
    ∃ v : Json, Json.Spells v.tokensOf text.toList ∧ ofJson? v = some a

theorem Faithful.read_write (h : Faithful α InRange) {a : α} (ha : InRange a) :
    read α (write a) = some a := by
  unfold read write
  rw [Json.parse_text (h.plain a)]
  exact h.ofJson?_toJson a ha

/-- What is read from a text is in range. -/
theorem Faithful.inRange_of_read (h : Faithful α InRange) {text : String} {a : α}
    (ha : read α text = some a) : InRange a := by
  obtain ⟨v, -, hv⟩ := Option.bind_eq_some_iff.1 ha
  exact h.inRange v a hv

/-- The values of a faithful form survive their texts. -/
theorem Faithful.roundTrips (h : Faithful α InRange) : RoundTrips α InRange where
  read_write a ha := h.read_write ha
  reread text a ha := ⟨h.inRange_of_read ha, h.read_write (h.inRange_of_read ha)⟩
  rewrite text a ha := by
    rw [h.read_write (h.inRange_of_read ha)]
    rfl
  read_eq_some_iff text a := by
    unfold read
    simp only [Option.bind_eq_some_iff, Json.parse_eq_some_iff]

end Form

namespace Json

/-! ## Numbers and lists -/

theorem word?_ofWord {n : Nat} (h : n < Word.limit) : (ofWord n).word? = some n := by
  show (if (0 : Int) ≤ n ∧ (n : Int) < Word.limit then some (n : Int).toNat else none) = _
  rw [if_pos ⟨Int.natCast_nonneg n, Int.ofNat_lt.2 h⟩, Int.toNat_natCast]

theorem lt_of_word? {v : Json} {n : Nat} (h : v.word? = some n) : n < Word.limit := by
  unfold word? at h
  split at h
  · split at h
    · cases h
      omega
    · cases h
  · cases h

theorem int64?_ofInt64 (i : Int64) : (ofInt64 i).int64? = some i := by
  show (if Int64.minValue.toInt ≤ i.toInt ∧ i.toInt ≤ Int64.maxValue.toInt
    then some (Int64.ofInt i.toInt) else none) = _
  rw [if_pos ⟨Int64.minValue_le_toInt i, Int64.toInt_le i⟩, Int64.ofInt_toInt]

/-- A list is read back if all elements are. -/
theorem list?_map {α : Type} {write : α → Json} {read : Json → Option α}
    (h : ∀ a, read (write a) = some a) (l : List α) :
    list? read (.array (l.map write)) = some l := by
  have hread : read ∘ write = fun a => pure a := funext h
  show (l.map write).mapM read = some l
  rw [List.mapM_map, hread, List.mapM_pure, List.map_id']
  rfl

/-! ## Names -/

section names

variable {α : Type} {all : List α} {name : α → String}

/-- Names are found, if all values have names of their own. -/
theorem find?_name_iff (hall : ∀ a, a ∈ all) (hname : ∀ a b, name a = name b → a = b) {s : String}
    {a : α} : all.find? (fun b => name b == s) = some a ↔ s = name a := by
  constructor
  · intro h
    have hfound := List.find?_some h
    exact (beq_iff_eq.1 hfound).symm
  · rintro rfl
    cases hfind : all.find? fun b => name b == name a with
    | none =>
      have hnone := List.find?_eq_none.1 hfind a (hall a)
      simp at hnone
    | some b =>
      have hfound := List.find?_some hfind
      rw [hname b a (beq_iff_eq.1 hfound)]

/-- A value is read from its name and from an object of this name, and from nothing else. -/
theorem name?_eq_some_iff (hall : ∀ a, a ∈ all) (hname : ∀ a b, name a = name b → a = b) {v : Json}
    {a : α} : name? all name v = some a ↔
      v = ofText (name a) ∨ v = .object [(some (name a), .null)] := by
  constructor
  · intro h
    unfold name? at h
    dsimp only at h
    split at h
    · rw [(find?_name_iff hall hname).1 h]
      exact .inl rfl
    · rw [(find?_name_iff hall hname).1 h]
      exact .inr rfl
    · cases h
  · rintro (rfl | rfl) <;> exact (find?_name_iff hall hname).2 rfl

end names

/-! ## Records -/

/-- What the members of one name say: nothing if there are none, and too much if there are two. -/
def only? : List (Option String × Json) → Option (Option Json)
  | [] => some none
  | [m] => some (some m.2)
  | _ => none

theorem record?_object (names : List String) (ms : List (Option String × Json)) :
    record? names (.object ms) = if ms.all (fun m => m.1.isSome) then
      names.mapM fun name => only? (ms.filter fun m => m.1 == some name) else none := by
  have honly : ∀ name : String, only? (ms.filter fun m => m.1 == some name) =
      match ms.filter fun m => m.1 == some name with
      | [] => some none
      | [m] => some (some m.2)
      | _ => none := by
    intro name
    cases ms.filter fun m => m.1 == some name with
    | nil => rfl
    | cons m rest => cases rest <;> rfl
  simp only [honly]
  rfl

theorem mapM_congr {α β : Type} {f g : α → Option β} {l : List α} (h : ∀ a ∈ l, f a = g a) :
    l.mapM f = l.mapM g := by
  induction l with
  | nil => rfl
  | cons a l ih =>
    rw [List.mapM_cons, List.mapM_cons, h a List.mem_cons_self,
      ih fun b hb => h b (List.mem_cons_of_mem a hb)]

/-- The order of members does not matter. -/
theorem only?_perm {ms ms' : List (Option String × Json)} (h : ms.Perm ms') :
    only? ms = only? ms' := by
  cases ms with
  | nil => rw [List.nil_perm.1 h]
  | cons m rest =>
    cases rest with
    | nil => rw [List.singleton_perm.1 h]
    | cons n rest =>
      -- two members are as many in any order
      have hlength := h.length_eq
      match ms', hlength with
      | _ :: _ :: _, _ => rfl

variable {names : List String}

/-- The members of a record may come in any order. -/
theorem record?_perm {ms ms' : List (Option String × Json)} (h : ms.Perm ms') :
    record? names (.object ms) = record? names (.object ms') := by
  rw [record?_object, record?_object, h.all_eq]
  have honly : ∀ name : String, only? (ms.filter fun m => m.1 == some name) =
      only? (ms'.filter fun m => m.1 == some name) := fun name => only?_perm (h.filter _)
  simp only [honly]

/-- Two objects are the same record if they have the same members of its names. -/
theorem record?_congr {ms ms' : List (Option String × Json)}
    (hall : ms.all (fun m => m.1.isSome) = ms'.all fun m => m.1.isSome)
    (h : ∀ name ∈ names, (ms.filter fun m => m.1 == some name) =
      ms'.filter fun m => m.1 == some name) :
    record? names (.object ms) = record? names (.object ms') := by
  rw [record?_object, record?_object, hall, mapM_congr fun name hname => congrArg only? (h name hname)]

/-- Members of other names may be among them. -/
theorem record?_append_others {ms others : List (Option String × Json)}
    (h : ∀ m ∈ others, ∃ k, m.1 = some k ∧ k ∉ names) :
    record? names (.object (ms ++ others)) = record? names (.object ms) := by
  apply record?_congr
  · rw [List.all_append, Bool.and_eq_left_iff_imp]
    intro _
    rw [List.all_eq_true]
    intro m hm
    obtain ⟨k, hk, -⟩ := h m hm
    rw [hk]
    rfl
  · intro name hname
    rw [List.filter_append, List.append_right_eq_self, List.filter_eq_nil_iff]
    intro m hm
    obtain ⟨k, hk, hother⟩ := h m hm
    rw [hk, beq_iff_eq, Option.some.injEq]
    rintro rfl
    exact hother hname

theorem exists_of_mem_zip {vs : List Json} {m : Option String × Json}
    (h : m ∈ (names.map some).zip vs) : ∃ k ∈ names, m.1 = some k := by
  obtain ⟨k, hk, hm⟩ := List.mem_map.1 (List.of_mem_zip h).1
  exact ⟨k, hk, hm.symm⟩

/-- Each name of its own finds the value beside it. -/
theorem mapM_only?_zip {vs : List Json} (hnames : names.Nodup)
    (hlength : vs.length = names.length) :
    (names.mapM fun name => only? (((names.map some).zip vs).filter fun m => m.1 == some name)) =
      some (vs.map some) := by
  induction names generalizing vs with
  | nil =>
    rw [List.eq_nil_of_length_eq_zero hlength]
    rfl
  | cons name names ih =>
    obtain ⟨hname, hnames⟩ := List.nodup_cons.1 hnames
    match vs, hlength with
    | v :: vs, hlength =>
      -- the name finds its value and no other, and no other name finds it
      have hfirst : ((some name, v) :: (names.map some).zip vs).filter (fun m => m.1 == some name) =
          [(some name, v)] := by
        rw [List.filter_cons, if_pos (beq_self_eq_true (some name)), List.cons_inj_right,
          List.filter_eq_nil_iff]
        intro m hm
        obtain ⟨k, hk, hmk⟩ := exists_of_mem_zip hm
        rw [hmk, beq_iff_eq, Option.some.injEq]
        rintro rfl
        exact hname hk
      have hrest : ∀ other ∈ names,
          only? (((some name, v) :: (names.map some).zip vs).filter fun m => m.1 == some other) =
            only? (((names.map some).zip vs).filter fun m => m.1 == some other) := by
        intro other hother
        rw [List.filter_cons_of_neg]
        rw [beq_iff_eq, Option.some.injEq]
        rintro rfl
        exact hname hother
      show ((name :: names).mapM fun other =>
        only? (((some name, v) :: (names.map some).zip vs).filter fun m => m.1 == some other)) = _
      rw [List.mapM_cons, mapM_congr hrest, hfirst, ih hnames (Nat.succ.inj hlength)]
      rfl

/-- The members of just the names of a record say what it is. -/
theorem record?_zip (names : List String) (vs : List Json) (hnames : names.Nodup)
    (hlength : vs.length = names.length) :
    record? names (.object ((names.map some).zip vs)) = some (vs.map some) := by
  rw [record?_object, if_pos ?_, mapM_only?_zip hnames hlength]
  rw [List.all_eq_true]
  intro m hm
  obtain ⟨k, -, hk⟩ := exists_of_mem_zip hm
  rw [hk]
  rfl

/-- Without the names, the values must be in their order. -/
theorem record?_array {vs : List Json} (hnames : names.Nodup) (hlength : vs.length = names.length) :
    record? names (.array vs) = record? names (.object ((names.map some).zip vs)) := by
  rw [record?_zip names vs hnames hlength]
  exact if_pos hlength

end Json

/-! ## The forms of names and of records -/

namespace Form

variable {α : Type} [Form α] {InRange : α → Prop}

/-- The form of a type whose values are names. -/
structure NamedForm (α : Type) [Form α] (name : α → String) : Prop
    extends RoundTrips α fun _ => True where
  /-- A name is a string, or else the only member of an object, if that is `null`. -/
  ofJson?_eq_some_iff : ∀ (v : Json) (a : α), ofJson? v = some a ↔
    v = .string (some (name a)) ∨ v = .object [(some (name a), .null)]

/-- The form of a type whose values are records. -/
structure RecordForm (α : Type) [Form α] (names : List String) (InRange : α → Prop) : Prop
    extends RoundTrips α InRange where
  /-- The members may come in any order. -/
  perm : ∀ ms ms' : List (Option String × Json), ms.Perm ms' →
    (ofJson? (.object ms) : Option α) = ofJson? (.object ms')
  /-- Members of other names may be among them. -/
  append_others : ∀ ms others : List (Option String × Json),
    (∀ m ∈ others, ∃ k, m.1 = some k ∧ k ∉ names) →
      (ofJson? (.object (ms ++ others)) : Option α) = ofJson? (.object ms)
  /-- The values may come in an array without their names. -/
  array : ∀ vs : List Json, vs.length = names.length →
    (ofJson? (.array vs) : Option α) = ofJson? (.object ((names.map some).zip vs))

/-- Values that are written as their names and read from them. -/
structure Named (all : List α) (name : α → String) : Prop where
  /-- No value is missing. -/
  mem_all : ∀ a, a ∈ all
  /-- No two values have the same name. -/
  name_injective : ∀ a b, name a = name b → a = b
  /-- The name is written. -/
  toJson_eq : ∀ a : α, toJson a = .ofText (name a)
  /-- It is looked for among all names. -/
  ofJson?_eq : ∀ v : Json, ofJson? v = Json.name? all name v

theorem Named.faithful {all : List α} {name : α → String} (h : Named all name) :
    Faithful α fun _ => True := by
  refine ⟨?_, ?_, fun _ _ _ => trivial⟩
  · intro a
    rw [h.toJson_eq a]
    exact .string (name a)
  · intro a _
    rw [h.toJson_eq a, h.ofJson?_eq]
    exact (Json.name?_eq_some_iff h.mem_all h.name_injective).2 (.inl rfl)

theorem Named.namedForm {all : List α} {name : α → String} (h : Named all name) :
    NamedForm α name := by
  refine ⟨h.faithful.roundTrips, ?_⟩
  intro v a
  rw [h.ofJson?_eq]
  exact Json.name?_eq_some_iff h.mem_all h.name_injective

/-- Numbers are read back if they fit a word. -/
theorem Faithful.of_number (make : Nat → α) (number : α → Nat) (hmake : ∀ a, make (number a) = a)
    (hnumber : ∀ n, number (make n) = n) (hwrite : ∀ a : α, toJson a = .ofWord (number a))
    (hread : ∀ v : Json, ofJson? v = v.word?.map make) :
    Faithful α fun a => number a < Word.limit := by
  refine ⟨?_, ?_, ?_⟩
  · intro a
    rw [hwrite a]
    exact .integer (number a)
  · intro a ha
    rw [hwrite a, hread, Json.word?_ofWord ha, Option.map_some, hmake a]
  · intro v a hv
    rw [hread] at hv
    obtain ⟨n, hn, rfl⟩ := Option.map_eq_some_iff.1 hv
    rw [hnumber n]
    exact Json.lt_of_word? hn

/-- Records that are read from their members are read alike from all forms of a record. -/
theorem RecordForm.of_record? {names : List String} (hnames : names.Nodup)
    (h : Faithful α InRange) (build : List (Option Json) → Option α)
    (hread : ∀ v : Json, ofJson? v = (v.record? names).bind build) :
    RecordForm α names InRange := by
  refine ⟨h.roundTrips, ?_, ?_, ?_⟩
  · intro ms ms' hms
    rw [hread, hread, Json.record?_perm hms]
  · intro ms others hothers
    rw [hread, hread, Json.record?_append_others hothers]
  · intro vs hlength
    rw [hread, hread, Json.record?_array hnames hlength]

end Form

end RowStream
