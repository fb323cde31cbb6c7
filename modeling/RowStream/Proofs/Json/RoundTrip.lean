import RowStream.Json.Forms
import RowStream.Proofs.Json.Form

/-!
# `RowStream.Proofs.Json.RoundTrip` — the values of all types survive their texts

Only numbers can be out of range: those that are written as words must fit a word.

## Contents
- `named_dataType`, `faithful_table` and their like — the form of each type reads what it writes.
- `ofJson?_of_missing_name` — a field without a name.
- `forms_roundTrip` — the texts of all values, and the values of all texts.
-/

namespace RowStream

open Form Json

/-! ## Names -/

theorem named_dataType : Named DataType.all DataType.jsonName where
  mem_all := by rintro ⟨⟩ <;> decide
  name_injective := by rintro ⟨⟩ ⟨⟩ <;> decide
  toJson_eq _ := rfl
  ofJson?_eq _ := rfl

theorem named_comparison : Named Comparison.all Comparison.jsonName where
  mem_all := by rintro ⟨⟩ <;> decide
  name_injective := by rintro ⟨⟩ ⟨⟩ <;> decide
  toJson_eq _ := rfl
  ofJson?_eq _ := rfl

theorem named_strategy : Named Strategy.all Strategy.name where
  mem_all := by rintro ⟨⟩ <;> decide
  name_injective := by rintro ⟨⟩ ⟨⟩ <;> decide
  toJson_eq _ := rfl
  ofJson?_eq _ := rfl

theorem named_aggregateFn : Named AggregateFn.all AggregateFn.name where
  mem_all := by rintro ⟨⟩ <;> decide
  name_injective := by rintro ⟨⟩ ⟨⟩ <;> decide
  toJson_eq _ := rfl
  ofJson?_eq _ := rfl

/-! ## Numbers and values -/

theorem faithful_table : Faithful TableId fun t => t.number < Word.limit :=
  .of_number TableId.mk TableId.number (fun _ => rfl) (fun _ => rfl) (fun _ => rfl) fun _ => rfl

theorem faithful_txn : Faithful TxnId fun t => t.number < Word.limit :=
  .of_number TxnId.mk TxnId.number (fun _ => rfl) (fun _ => rfl) (fun _ => rfl) fun _ => rfl

theorem faithful_value : Faithful Value fun _ => True where
  plain
    | .int i => .object (by simp) (by simpa using .integer i.toInt)
    | .str s => .object (by simp) (by simpa using .string s)
  ofJson?_toJson
    | .int i, _ => by
      show (ofInt64 i).int64?.map Value.int = _
      rw [int64?_ofInt64]
      rfl
    | .str s, _ => rfl
  inRange _ _ _ := trivial

/-! ## Records -/

theorem faithful_field : Faithful Field fun _ => True where
  plain f := by
    refine .object (by simp) ?_
    have hname : Plain ((f.name.map ofText).getD .null) := by
      cases f.name with
      | none => exact .null
      | some name => exact .string name
    simpa using ⟨hname, .string f.type.jsonName⟩
  ofJson?_toJson f _ := by
    have hrecord : (toJson f).record? ["name", "ty"] =
        some [some ((f.name.map ofText).getD .null), some (toJson f.type)] :=
      record?_zip ["name", "ty"] [_, _] (by decide) rfl
    have hname : ((f.name.map ofText).getD .null).optionalText? = some f.name := by
      cases f.name <;> rfl
    show ((toJson f).record? ["name", "ty"]).bind _ = some f
    rw [hrecord, Option.bind_some]
    dsimp only [Option.getD_some]
    rw [hname, named_dataType.faithful.ofJson?_toJson _ trivial]
    rfl
  inRange _ _ _ := trivial

theorem faithful_schema : Faithful Schema fun _ => True where
  plain s := by
    refine .object (by simp) ?_
    have hfields : Plain (.array (s.fields.map toJson)) := by
      apply Plain.array
      intro v hv
      obtain ⟨f, -, rfl⟩ := List.mem_map.1 hv
      exact faithful_field.plain f
    simpa using hfields
  ofJson?_toJson s _ := by
    have hrecord : (toJson s).record? ["fields"] = some [some (.array (s.fields.map toJson))] :=
      record?_zip ["fields"] [_] (by decide) rfl
    show ((toJson s).record? ["fields"]).bind _ = some s
    rw [hrecord]
    show (list? ofJson? (.array (s.fields.map toJson))).bind _ = _
    rw [list?_map fun f => faithful_field.ofJson?_toJson f trivial]
    rfl
  inRange _ _ _ := trivial

theorem faithful_recordId :
    Faithful RecordId fun r => r.page < Word.limit ∧ r.slot < Word.limit where
  plain r := .object (by simp) (by simpa using ⟨.integer r.page, .integer r.slot⟩)
  ofJson?_toJson r hr := by
    have hrecord : (toJson r).record? ["page", "slot"] =
        some [some (ofWord r.page), some (ofWord r.slot)] :=
      record?_zip ["page", "slot"] [_, _] (by decide) rfl
    show ((toJson r).record? ["page", "slot"]).bind _ = some r
    rw [hrecord, Option.bind_some]
    dsimp only
    rw [word?_ofWord hr.1, word?_ofWord hr.2]
    rfl
  inRange v r h := by
    obtain ⟨found, -, h⟩ := Option.bind_eq_some_iff.1 h
    split at h
    · obtain ⟨page, hpage, h⟩ := Option.bind_eq_some_iff.1 h
      obtain ⟨slot, hslot, h⟩ := Option.bind_eq_some_iff.1 h
      cases h
      exact ⟨lt_of_word? hpage, lt_of_word? hslot⟩
    · cases h

theorem faithful_config :
    Faithful Config fun c => c.joinBufferBytes < Word.limit ∧ c.scanPageRows < Word.limit where
  plain c := .object (by simp) (by
    simpa using ⟨.integer c.joinBufferBytes, .string c.strategy.name, .integer c.scanPageRows⟩)
  ofJson?_toJson c hc := by
    have hrecord : (toJson c).record? ["join_buffer_bytes", "join_strategy", "scan_page_tuples"] =
        some [some (ofWord c.joinBufferBytes), some (toJson c.strategy),
          some (ofWord c.scanPageRows)] :=
      record?_zip _ [_, _, _] (by decide) rfl
    show ((toJson c).record? _).bind _ = some c
    rw [hrecord, Option.bind_some]
    dsimp only
    rw [word?_ofWord hc.1, word?_ofWord hc.2, named_strategy.faithful.ofJson?_toJson _ trivial]
    rfl
  inRange v c h := by
    obtain ⟨found, -, h⟩ := Option.bind_eq_some_iff.1 h
    split at h
    · obtain ⟨bytes, hbytes, h⟩ := Option.bind_eq_some_iff.1 h
      obtain ⟨strategy, -, h⟩ := Option.bind_eq_some_iff.1 h
      obtain ⟨rows, hrows, h⟩ := Option.bind_eq_some_iff.1 h
      cases h
      exact ⟨lt_of_word? hbytes, lt_of_word? hrows⟩
    · cases h

theorem faithful_predicate :
    Faithful Predicate fun p => p.leftField < Word.limit ∧ p.rightField < Word.limit where
  plain p := .object (by simp) (by
    simpa using ⟨.integer p.leftField, .string p.op.jsonName, .integer p.rightField⟩)
  ofJson?_toJson p hp := by
    have hrecord : (toJson p).record? ["left_field", "op", "right_field"] =
        some [some (ofWord p.leftField), some (toJson p.op), some (ofWord p.rightField)] :=
      record?_zip _ [_, _, _] (by decide) rfl
    show ((toJson p).record? _).bind _ = some p
    rw [hrecord, Option.bind_some]
    dsimp only
    rw [word?_ofWord hp.1, word?_ofWord hp.2, named_comparison.faithful.ofJson?_toJson _ trivial]
    rfl
  inRange v p h := by
    obtain ⟨found, -, h⟩ := Option.bind_eq_some_iff.1 h
    split at h
    · obtain ⟨left, hleft, h⟩ := Option.bind_eq_some_iff.1 h
      obtain ⟨op, -, h⟩ := Option.bind_eq_some_iff.1 h
      obtain ⟨right, hright, h⟩ := Option.bind_eq_some_iff.1 h
      cases h
      exact ⟨lt_of_word? hleft, lt_of_word? hright⟩
    · cases h

/-! ## Values and their texts -/

/-- The name of a field may be missing as well as `null`. -/
theorem ofJson?_of_missing_name {ms : List (Option String × Json)}
    (h : ∀ m ∈ ms, m.1 ≠ some "name") :
    (ofJson? (.object ms) : Option Field) = ofJson? (.object ((some "name", .null) :: ms)) := by
  have hnone : (ms.filter fun m => m.1 == some "name") = [] := by
    rw [List.filter_eq_nil_iff]
    intro m hm
    rw [beq_iff_eq]
    exact h m hm
  have hname : ((some "name", Json.null) :: ms).filter (fun m => m.1 == some "name") =
      [(some "name", .null)] := by
    rw [List.filter_cons, if_pos (beq_self_eq_true (some "name")), hnone]
  have htype : ((some "name", Json.null) :: ms).filter (fun m => m.1 == some "ty") =
      ms.filter fun m => m.1 == some "ty" := by
    rw [List.filter_cons, if_neg (by decide)]
  show (record? ["name", "ty"] (.object ms)).bind _ =
    (record? ["name", "ty"] (.object ((some "name", .null) :: ms))).bind _
  rw [record?_object, record?_object, List.all_cons, Option.isSome_some, Bool.true_and]
  by_cases htexts : ms.all (fun m => m.1.isSome) = true
  · rw [if_pos htexts, if_pos htexts]
    simp only [List.mapM_cons, List.mapM_nil, hnone, hname, htype]
    -- no name and a name that is null are told apart, but they denote the same
    cases only? (ms.filter fun m => m.1 == some "ty") with
    | none => rfl
    | some type => cases type <;> rfl
  · rw [if_neg htexts, if_neg htexts]

/-- Every value is read back from the text that is written for it, and whatever other text a value
was read from, its own text is read as the same value and written again as it is. A text is read
exactly if it spells a JSON value that denotes one: names may also be members that are `null`; records
may have their members in any order, others among them, or just the values in an array; and a field
may lack its name. -/
theorem forms_roundTrip :
    (NamedForm DataType DataType.jsonName ∧ NamedForm Comparison Comparison.jsonName ∧
        NamedForm Strategy Strategy.name ∧ NamedForm AggregateFn AggregateFn.name) ∧
      (RoundTrips TableId (fun t => t.number < Word.limit) ∧
        RoundTrips TxnId (fun t => t.number < Word.limit) ∧
        RoundTrips Value fun _ => True) ∧
      (RecordForm Field ["name", "ty"] (fun _ => True) ∧
        RecordForm Schema ["fields"] (fun _ => True) ∧
        RecordForm RecordId ["page", "slot"]
          (fun r => r.page < Word.limit ∧ r.slot < Word.limit) ∧
        RecordForm Config ["join_buffer_bytes", "join_strategy", "scan_page_tuples"]
          (fun c => c.joinBufferBytes < Word.limit ∧ c.scanPageRows < Word.limit) ∧
        RecordForm Predicate ["left_field", "op", "right_field"]
          (fun p => p.leftField < Word.limit ∧ p.rightField < Word.limit)) ∧
      ∀ ms : List (Option String × Json), (∀ m ∈ ms, m.1 ≠ some "name") →
        (ofJson? (.object ms) : Option Field) =
          ofJson? (.object ((some "name", .null) :: ms)) := by
  refine ⟨⟨?_, ?_, ?_, ?_⟩, ⟨?_, ?_, ?_⟩, ⟨?_, ?_, ?_, ?_, ?_⟩, fun ms => ofJson?_of_missing_name⟩
  · exact named_dataType.namedForm
  · exact named_comparison.namedForm
  · exact named_strategy.namedForm
  · exact named_aggregateFn.namedForm
  · exact faithful_table.roundTrips
  · exact faithful_txn.roundTrips
  · exact faithful_value.roundTrips
  · exact .of_record? (by decide) faithful_field _ fun _ => rfl
  · exact .of_record? (by decide) faithful_schema _ fun _ => rfl
  · exact .of_record? (by decide) faithful_recordId _ fun _ => rfl
  · exact .of_record? (by decide) faithful_config _ fun _ => rfl
  · exact .of_record? (by decide) faithful_predicate _ fun _ => rfl

/-- A field in an array, without a name, with blanks, and with an escape in the name of its type. -/
example : Form.read Field " [ null ,\t\"\\u0049nt\" ]\n" = some ⟨none, .int⟩ := by
  cbv

end RowStream
