import RowStream.InPlace
import RowStream.Proofs.Row.Typed

/-!
# `RowStream.Proofs.Row.Drafts` — rows that are made, changed and put together

Rows are made of nothing or of values, are written to cell by cell, take other columns and are put
together, any number of times and in any order. What they are given may be of the wrong type or too
long. Beside each row stands here what it was given, as it was given. The cells are that, with every
string cut to size, and they are what the columns ask for, whatever was refused meanwhile.

## Contents
- `Row.put`, `put_of_ok`, `put_of_error` — writing to a cell in place, where a failure leaves behind what
  was done.
- `Row.Draft`, `Edit`, `drafts` — rows beside what they were given, and the calls that make and change
  them.
- `Draft.Makes`, `made?_eq_some_iff` — which calls make a row, and which row.
- `Draft.Kept`, `kept_of_makes`, `Kept.put`, `kept_next`, `kept_foldl` — what stays true, call by call.
- `Draft.Exact`, `Kept.exact` — all that can be told of a row and of what is written to it.
- `drafts_exact` — the strings that cells hold, and the rows that there are after any calls.
-/

namespace RowStream.Row

variable {row row' : Row} {index : Nat} {value : Value} {e : DataError}

/-! ## Writing in place -/

/-- Puts a value into a cell of the row that is at hand. What was done before a failure stays done. -/
def put (index : Nat) (value : Value) : InPlace DataError Row Unit := do
  let expected ← InPlace.check ((← get).schema.fieldType index)
  let cut := value.truncated
  if cut.type = expected then
    modify fun row => { row with cells := row.cells.set index (some cut) }
  else
    throw (.typeMismatch expected cut.type)

/-- Nothing is done before a failure. -/
theorem put_run (index : Nat) (value : Value) (row : Row) :
    (put index value).run row =
      match row.set index value with
      | .ok row' => .ok () row'
      | .error e => .error e row := by
  unfold put Row.set
  simp only [EStateM.run_bind, EStateM.run_get, InPlace.run_check, Value.type_truncated]
  cases row.schema.fieldType index with
  | error e => rfl
  | ok expected =>
    by_cases hvalue : value.type = expected
    · simp only [bind, Except.bind, hvalue, if_true]
      rfl
    · simp only [bind, Except.bind, hvalue, if_false]
      rfl

/-- A value that is taken is written to its cell. -/
theorem put_of_ok (h : row.set index value = .ok row') :
    (put index value).run row = .ok () row' := by
  rw [put_run, h]

/-- A value that is refused leaves the row as it was. -/
theorem put_of_error (h : row.set index value = .error e) :
    (put index value).run row = .error e row := by
  rw [put_run, h]

/-! ## Rows beside what they were given -/

theorem toOption_eq_some_iff {ε α : Type} {result : Except ε α} {a : α} :
    result.toOption = some a ↔ result = .ok a := by
  cases result <;> simp [Except.toOption]

/-- A row, and what its cells were given. -/
structure Draft where
  /-- The row. -/
  row : Row
  /-- What each cell was given last, as it was given. -/
  given : List (Option Value)
  deriving DecidableEq, Repr

/-- A call that makes a row or changes one. The rows that there are go by their numbers, from the oldest
on. -/
inductive Edit where
  /-- Makes a row without values. -/
  | empty (schema : Schema)
  /-- Makes a row of values. -/
  | ofValues (schema : Schema) (values : List Value)
  /-- Writes to a cell of a row. -/
  | put (number index : Nat) (value : Value)
  /-- Makes a row of the cells of another under other columns. -/
  | rebind (number : Nat) (schema : Schema)
  /-- Makes a row of the cells of two under the columns of both. -/
  | append (left right : Nat)
  deriving DecidableEq, Repr

namespace Draft

variable {d : Draft} {ds : List Draft} {edit : Edit}

/-- The row that a call makes, if it makes one. -/
def made? (ds : List Draft) : Edit → Option Draft
  | .empty schema => some ⟨Row.empty schema, List.replicate schema.width none⟩
  | .ofValues schema values =>
    (Row.ofValues schema values).toOption.map fun row => ⟨row, values.map some⟩
  | .put .. => none
  | .rebind number schema =>
    ds[number]?.bind fun d => (d.row.rebind schema).toOption.map fun row => { d with row }
  | .append left right =>
    ds[left]?.bind fun l => ds[right]?.map fun r =>
      ⟨l.row.append r.row (l.row.schema.append r.row.schema), l.given ++ r.given⟩

/-- What is left after writing to a cell. -/
def put (d : Draft) (index : Nat) (value : Value) : Draft :=
  match (Row.put index value).run d.row with
  | .ok _ row => ⟨row, d.given.set index (some value)⟩
  | .error _ row => { d with row }

/-- A call makes this row beside those that there are. -/
inductive Makes (ds : List Draft) : Edit → Draft → Prop where
  /-- No cell has a value. -/
  | empty (schema : Schema) :
    Makes ds (.empty schema) {
      row := { schema, cells := List.replicate schema.width none }
      given := List.replicate schema.width none }
  /-- The values have the types of the columns, one for each. -/
  | ofValues {schema : Schema} {values : List Value} : values.map Value.type = schema.types →
    Makes ds (.ofValues schema values) {
      row := { schema, cells := (values.map some).map (Option.map Value.truncated) }
      given := values.map some }
  /-- The columns have the types of those that the row has. -/
  | rebind {number : Nat} {schema : Schema} {d : Draft} : ds[number]? = some d →
    schema.Agrees d.row.schema →
    Makes ds (.rebind number schema) { d with row := { d.row with schema } }
  /-- The columns and the cells of one row come behind those of the other. -/
  | append {left right : Nat} {l r : Draft} : ds[left]? = some l → ds[right]? = some r →
    Makes ds (.append left right) {
      row := { schema := l.row.schema.append r.row.schema, cells := l.row.cells ++ r.row.cells }
      given := l.given ++ r.given }

/-- A call makes a row exactly in these cases. -/
theorem made?_eq_some_iff : made? ds edit = some d ↔ Makes ds edit d := by
  constructor
  · intro h
    cases edit with
    | empty schema =>
      cases h
      exact .empty schema
    | ofValues schema values =>
      obtain ⟨row, hrow, rfl⟩ := Option.map_eq_some_iff.1 h
      obtain ⟨htypes, rfl⟩ := ofValues_eq_ok_iff.1 (toOption_eq_some_iff.1 hrow)
      exact .ofValues htypes
    | put number index value => cases h
    | rebind number schema =>
      obtain ⟨d₀, hd₀, h⟩ := Option.bind_eq_some_iff.1 h
      obtain ⟨row, hrow, rfl⟩ := Option.map_eq_some_iff.1 h
      obtain ⟨hagrees, rfl⟩ := rebind_eq_ok_iff.1 (toOption_eq_some_iff.1 hrow)
      exact .rebind hd₀ hagrees
    | append left right =>
      obtain ⟨l, hl, h⟩ := Option.bind_eq_some_iff.1 h
      obtain ⟨r, hr, rfl⟩ := Option.map_eq_some_iff.1 h
      exact .append hl hr
  · intro h
    cases h with
    | empty schema => rfl
    | ofValues htypes =>
      have hrow := toOption_eq_some_iff.2 (ofValues_of_types htypes)
      exact Option.map_eq_some_iff.2 ⟨_, hrow, rfl⟩
    | rebind hd₀ hagrees =>
      have hrow := toOption_eq_some_iff.2 (rebind_eq_ok_iff.2 ⟨hagrees, rfl⟩)
      refine Option.bind_eq_some_iff.2 ⟨_, hd₀, ?_⟩
      exact Option.map_eq_some_iff.2 ⟨_, hrow, rfl⟩
    | append hl hr =>
      refine Option.bind_eq_some_iff.2 ⟨_, hl, ?_⟩
      exact Option.map_eq_some_iff.2 ⟨_, hr, rfl⟩

/-- One more call. -/
def next (ds : List Draft) : Edit → List Draft
  | .put number index value => ds.modify number (·.put index value)
  | edit => ds ++ (made? ds edit).toList

end Draft

/-- Calls, one after the other, where there are no rows at first. -/
def drafts (edits : List Edit) : List Draft := edits.foldl Draft.next []

namespace Draft

variable {d : Draft} {ds : List Draft} {edit : Edit}

/-- What stays true of a row. -/
structure Kept (d : Draft) : Prop where
  /-- It is what its columns say. -/
  typed : d.row.Typed d.row.schema
  /-- It has what it was given, cut to size. -/
  cells_eq : d.row.cells = d.given.map (Option.map Value.truncated)

/-- It is true of a row that is made of such rows. -/
theorem kept_of_makes (h : ∀ d ∈ ds, d.Kept) (hmakes : Makes ds edit d) : d.Kept := by
  cases hmakes with
  | empty schema =>
    refine ⟨typed_empty schema, ?_⟩
    rw [List.map_replicate]
    rfl
  | ofValues htypes =>
    refine ⟨?_, rfl⟩
    exact typed_of_made (made_of_values (ofValues_of_types htypes))
  | rebind hd₀ hagrees =>
    have hkept := h _ (List.mem_of_getElem? hd₀)
    exact ⟨hkept.typed.of_cells rfl (.refl _) hagrees.symm, hkept.cells_eq⟩
  | @append _ _ l r hl hr =>
    have hl := h l (List.mem_of_getElem? hl)
    have hr := h r (List.mem_of_getElem? hr)
    refine ⟨hl.typed.append hr.typed, ?_⟩
    show l.row.cells ++ r.row.cells = _
    rw [hl.cells_eq, hr.cells_eq, List.map_append]

/-- It stays true when the row is written to. -/
theorem Kept.put (h : d.Kept) (index : Nat) (value : Value) : (d.put index value).Kept := by
  unfold Draft.put
  cases hset : d.row.set index value with
  | error e =>
    rw [put_of_error hset]
    exact h
  | ok row =>
    rw [put_of_ok hset]
    refine ⟨typed_set h.typed hset, ?_⟩
    obtain ⟨-, rfl⟩ := set_eq_ok_iff.1 hset
    show d.row.cells.set index (some value.truncated) = _
    rw [h.cells_eq, List.map_set]
    rfl

/-- One more call keeps it true of all rows. -/
theorem kept_next (h : ∀ d ∈ ds, d.Kept) (edit : Edit) : ∀ d ∈ next ds edit, d.Kept := by
  -- calls that make a row leave the others alone
  have hmake : ∀ d ∈ ds ++ (made? ds edit).toList, d.Kept := by
    intro d hd
    rcases List.mem_append.1 hd with hold | hnew
    · exact h d hold
    · exact kept_of_makes h (made?_eq_some_iff.1 (Option.mem_toList.1 hnew))
  cases edit with
  | put number index value =>
    intro d hd
    obtain ⟨i, hi⟩ := List.mem_iff_getElem?.1 hd
    simp only [next, List.getElem?_modify] at hi
    obtain ⟨d₀, hd₀, rfl⟩ := Option.map_eq_some_iff.1 hi
    have hkept := h d₀ (List.mem_of_getElem? hd₀)
    by_cases hnumber : number = i
    · rw [if_pos hnumber]
      exact hkept.put index value
    · rw [if_neg hnumber]
      exact hkept
  | empty schema => exact hmake
  | ofValues schema values => exact hmake
  | rebind number schema => exact hmake
  | append left right => exact hmake

/-- Any calls do. -/
theorem kept_foldl (h : ∀ d ∈ ds, d.Kept) (edits : List Edit) :
    ∀ d ∈ edits.foldl next ds, d.Kept := by
  induction edits generalizing ds with
  | nil => exact h
  | cons edit edits ih =>
    apply ih
    exact kept_next h edit

/-- So it is true of every row that there is. -/
theorem kept_drafts (edits : List Edit) : ∀ d ∈ drafts edits, d.Kept := by
  apply kept_foldl
  intro d hd
  cases hd

/-- All that can be told of a row and of a value that is written to it. -/
structure Exact (d : Draft) : Prop where
  /-- There is a cell for each column. -/
  length_eq : d.row.length = d.row.schema.width
  /-- The cells have what they were given, cut to size. -/
  cells_eq : d.row.cells = d.given.map (Option.map Value.truncated)
  /-- A value has the type of its column. -/
  type_eq : ∀ {index v}, d.row.get? index = some v → d.row.schema.types[index]? = some v.type
  /-- It is cut to size already. -/
  truncated_eq : ∀ {index v}, d.row.get? index = some v → v.truncated = v
  /-- A value is taken exactly if the column has its type, and the other cells stay. -/
  set_ok_iff : ∀ {index value row}, d.row.set index value = .ok row ↔
    d.row.schema.types[index]? = some value.type ∧
      row = { d.row with cells := d.row.cells.set index (some value.truncated) }
  /-- It is in its cell then, cut to size. -/
  get?_of_set : ∀ {index value row}, d.row.set index value = .ok row →
    row.get? index = some value.truncated
  /-- Writing it in place comes to the same. -/
  put_of_ok : ∀ {index value row}, d.row.set index value = .ok row →
    (Row.put index value).run d.row = .ok () row
  /-- Writing another value in place fails and leaves the row as it was. -/
  put_of_error : ∀ {index value e}, d.row.set index value = .error e →
    (Row.put index value).run d.row = .error e d.row

/-- What stays true of a row is all that. -/
theorem Kept.exact (h : d.Kept) : d.Exact where
  length_eq := h.typed.conforms.length_eq
  cells_eq := h.cells_eq
  type_eq := h.typed.conforms.type_eq
  truncated_eq := by
    intro index v hv
    exact Value.truncated_eq_self (h.typed.sized hv)
  set_ok_iff := set_eq_ok_iff
  get?_of_set := by
    intro index value row hset
    obtain ⟨htype, rfl⟩ := set_eq_ok_iff.1 hset
    -- there is a cell, since there is a column
    have hcell : index < d.row.cells.length := by
      have hcolumn := (List.getElem?_eq_some_iff.1 htype).1
      rw [Schema.length_types, ← h.typed.conforms.length_eq] at hcolumn
      exact hcolumn
    unfold get?
    rw [List.getElem?_set_self hcell, Option.join_some]
  put_of_ok := Row.put_of_ok
  put_of_error := Row.put_of_error

end Draft

/-- A string is held in a cell as its longest leading part of whole characters that takes at most 128
bytes. It is held whole if it fits and otherwise in 125 bytes at least, the search for its end always
finds one, and what is held is not cut again. Whatever calls make rows, write to them, put them under
other columns and put them together, every row has a cell for each of its columns. The cells have what
they were given, each of the type of its column and with strings cut so; a value of another type is
refused, and then the row stays as it was. Values and columns of other types make no row. -/
theorem drafts_exact :
    (∀ s : String, ∃ t : String, Value.ofString s = .str t ∧
      (∀ t', Text.LongestFit 128 s t' ↔ t' = t) ∧
      (s.utf8ByteSize ≤ 128 → t = s) ∧
      (128 < s.utf8ByteSize → 125 ≤ t.utf8ByteSize) ∧
      Text.searchCut? 128 s = some t ∧
      Value.ofString t = .str t) ∧
    ∀ edits : List Edit, (∀ d ∈ drafts edits, d.Exact) ∧
      ∀ edit d, Draft.made? (drafts edits) edit = some d ↔ Draft.Makes (drafts edits) edit d := by
  constructor
  · intro s
    refine ⟨Text.truncate 128 s, rfl, ?_, Text.truncate_eq_self, ?_, Text.searchCut?_eq 128 s, ?_⟩
    · intro t'
      constructor
      · exact Text.LongestFit.eq_truncate
      · rintro rfl
        exact Text.longestFit_truncate 128 s
    · intro hlong
      have hshort := Text.lt_utf8ByteSize_truncate hlong
      omega
    · exact congrArg Value.str (Text.truncate_truncate 128 s)
  · intro edits
    constructor
    · intro d hd
      exact (Draft.kept_drafts edits d hd).exact
    · intro edit d
      exact Draft.made?_eq_some_iff

/-- A text of 42 signs of three bytes each is held whole, and one of 43 signs nearly so. Prices of 43 and
of 50 such signs are held as 42. The row is put under columns without names, refuses a text for a number,
takes another price, and is put behind the first one, which has its own columns still. -/
theorem drafts_exact_of_prices :
    let signs (n : Nat) : String := String.ofList (List.replicate n '€')
    let price (n : Nat) : Value := .str (signs n)
    let named := Schema.named [.int, .str] ["id", "price"]
    let unnamed := Schema.ofTypes [.int, .str]
    let edits : List Edit := [.ofValues named [.int 1, price 43], .rebind 0 unnamed,
      .put 1 0 (.str "one"), .put 1 1 (price 50), .append 0 1]
    let d : Draft :=
      { row := ⟨named.append unnamed,
          [some (.int 1), some (price 42), some (.int 1), some (price 42)], none⟩
        given := [some (.int 1), some (price 43), some (.int 1), some (price 50)] }
    ((signs 42).utf8ByteSize ≤ 128 ∧ Value.ofString (signs 42) = .str (signs 42)) ∧
      (128 < (signs 43).utf8ByteSize ∧
        ∃ t, Value.ofString (signs 43) = .str t ∧ 125 ≤ t.utf8ByteSize) ∧
      d ∈ drafts edits ∧ d.Exact := by
  intro signs price named unnamed edits d
  have hfits : (signs 42).utf8ByteSize ≤ 128 := by
    rw [Text.utf8ByteSize_ofList]
    decide
  have hlong : 128 < (signs 43).utf8ByteSize := by
    rw [Text.utf8ByteSize_ofList]
    decide
  have hcut : ∀ n, Text.takeBytes 128 (List.replicate n '€') = List.replicate 42 '€' →
      (price n).truncated = price 42 := by
    intro n hn
    refine congrArg Value.str ?_
    rw [Text.truncate_ofList]
    exact congrArg String.ofList hn
  have hlast : (drafts edits)[2]? =
      some ⟨⟨named.append unnamed, [some (.int 1), some (price 43).truncated, some (.int 1),
        some (price 50).truncated], none⟩, d.given⟩ := by rfl
  rw [hcut 43 (by decide), hcut 50 (by decide)] at hlast
  have hd : d ∈ drafts edits := List.mem_of_getElem? hlast
  obtain ⟨whole, hwhole, -, heq, -⟩ := drafts_exact.1 (signs 42)
  obtain ⟨held, hheld, -, -, hnear, -⟩ := drafts_exact.1 (signs 43)
  rw [heq hfits] at hwhole
  exact ⟨⟨hfits, hwhole⟩, ⟨hlong, held, hheld, hnear hlong⟩, hd, (drafts_exact.2 edits).1 d hd⟩

end RowStream.Row
