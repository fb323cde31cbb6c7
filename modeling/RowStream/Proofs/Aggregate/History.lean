import Mathlib.Data.List.Dedup
import RowStream.Proofs.Aggregate.Refused

/-!
# `RowStream.Proofs.Aggregate.History` — the groups after any calls

A grouping outlives the calls on it: rows are taken or refused and the groups are cleared, in any
order, and nothing is known of the rows. What the groups answer afterwards is what grouping and
reducing at once makes of the rows that were taken since the groups were last cleared.

## Contents
- `Grouping.Action`, `Grouping.Log` — calls, and the rows that they leave taken.
- `Accounted`, `accounted_log` — the groups are those of the rows taken.
- `GroupKey.row`, `row_of_hasRoom` — the rows of the groups under a schema.
- `Grouping.Batched`, `log_exact` — refusals, groups and rows after any calls.
-/

namespace RowStream

namespace Grouping

variable {g blank : Grouping} {kept : List Row}

/-! ## Calls -/

/-- A call that may change the groups. -/
inductive Action where
  /-- Takes a row, or refuses it. -/
  | take (row : Row)
  /-- Forgets all groups. -/
  | clear
  deriving DecidableEq, Repr

/-- A grouping, and the rows that it took since its groups were last cleared. -/
structure Log where
  /-- The grouping. -/
  grouping : Grouping
  /-- The rows, in the order in which they were taken. -/
  kept : List Row := []
  deriving DecidableEq, Repr

/-- One more call. -/
def Log.next (log : Log) : Action → Log
  | .take row =>
    match log.grouping.take row with
    | (.ok (), g) => ⟨g, log.kept ++ [row]⟩
    | (.error _, g) => ⟨g, log.kept⟩
  | .clear => ⟨log.grouping.clear, []⟩

/-- The calls, one after the other. -/
def log (blank : Grouping) (actions : List Action) : Log := actions.foldl Log.next ⟨blank, []⟩

/-- A row that is refused changes nothing. -/
theorem next_take (log : Log) (row : Row) :
    log.next (.take row) = match log.grouping.merge row with
      | .ok g => ⟨g, log.kept ++ [row]⟩
      | .error _ => log := by
  unfold Log.next
  simp only [take_eq]
  cases log.grouping.merge row <;> rfl

/-! ## The groups are those of the rows taken -/

/-- The groups are those of the rows taken, each of which could be read. -/
structure Accounted (blank : Grouping) (log : Log) : Prop where
  /-- What is known of the groups. -/
  summary : Summary blank log.kept log.grouping
  /-- The rows have a key and a cell. -/
  reads : ∀ row ∈ log.kept, blank.Reads row

/-- One more call. -/
theorem Accounted.next {log : Log} (h : Accounted blank log) (hblank : blank.groups = [])
    (action : Action) : Accounted blank (log.next action) := by
  cases action with
  | clear =>
    have hcleared : log.grouping.clear = blank := by
      rw [h.summary.settings]
      unfold clear
      rw [← hblank]
    unfold Log.next
    rw [hcleared]
    exact ⟨Summary.start hblank, fun row hrow => absurd hrow List.not_mem_nil⟩
  | take row =>
    rw [next_take]
    cases hmerge : log.grouping.merge row with
    | error e => exact h
    | ok g' =>
      obtain ⟨-, key, cell, acc, hkey, hcell, hacc, rfl⟩ := of_merge hmerge
      -- the settings decide the key and the cell
      rw [h.summary.settings] at hkey hcell
      refine ⟨h.summary.merge hkey hcell hacc, fun row' hrow' => ?_⟩
      rcases List.mem_append.1 hrow' with hold | hnew
      · exact h.reads row' hold
      · rw [List.mem_singleton.1 hnew]
        exact ⟨key, cell, hkey, hcell⟩

/-- After any calls, the groups are those of the rows taken. -/
theorem accounted_log (hblank : blank.groups = []) (actions : List Action) :
    Accounted blank (blank.log actions) := by
  suffices go : ∀ start, Accounted blank start → Accounted blank (actions.foldl Log.next start) from
    go ⟨blank, []⟩ ⟨Summary.start hblank, fun row hrow => absurd hrow List.not_mem_nil⟩
  induction actions with
  | nil =>
    intro start h
    exact h
  | cons action actions ih =>
    intro start h
    exact ih (start.next action) (h.next hblank action)

/-- A call takes at most one row. -/
theorem length_kept_next (log : Log) (action : Action) :
    (log.next action).kept.length ≤ log.kept.length + 1 := by
  cases action with
  | clear => exact Nat.zero_le _
  | take row =>
    rw [next_take]
    cases log.grouping.merge row with
    | error e => exact Nat.le_succ _
    | ok g' => simp

/-- No more rows are taken than there are calls. -/
theorem length_kept_log (blank : Grouping) (actions : List Action) :
    (blank.log actions).kept.length ≤ actions.length := by
  suffices go : ∀ start, (actions.foldl Log.next start).kept.length ≤
      start.kept.length + actions.length from
    (go ⟨blank, []⟩).trans_eq (Nat.zero_add _)
  induction actions with
  | nil =>
    intro start
    exact Nat.le_refl _
  | cons action actions ih =>
    intro start
    have hrest := ih (start.next action)
    have hnext := length_kept_next start action
    rw [List.foldl_cons, List.length_cons]
    omega

/-- The keys of the groups are those of the rows, without repetition. -/
theorem Summary.keys_perm (h : Summary blank kept g) (hreads : ∀ row ∈ kept, blank.Reads row) :
    (g.groups.map Prod.fst).Perm
      (kept.map (GroupKey.ofRow (blank.group.map Prod.fst))).dedup := by
  refine (List.perm_ext_iff_of_nodup h.nodup (List.nodup_dedup _)).2 fun key => ?_
  rw [h.mem_keys_iff hreads, List.mem_dedup, List.mem_map]

end Grouping

/-! ## The rows of the groups -/

/-- The row of a group under a schema: the cell of the key, the answer, and no value in the columns
behind them. -/
def GroupKey.row (schema : Schema) (key : GroupKey) (answer : Option Int64) : Row where
  schema := schema
  cells := key.cells ++ answer.map Value.int ::
    List.replicate (schema.width - (key.cells.length + 1)) none

namespace Grouping

variable {g blank : Grouping} {schema : Schema} {kept : List Row}

/-- Where the schema has columns for a group, the group has a row. -/
theorem row_of_hasRoom {key : GroupKey} (h : HasRoom schema key) (acc : Accumulator) :
    Grouping.row schema key acc = .ok (key.row schema acc.value) := by
  obtain ⟨hlength, htypes⟩ := answerValues_fit h acc
  have hrow : Grouping.row schema key acc = Row.ofCells schema (answerValues key acc) := by
    cases key <;> rfl
  have hcells : (answerValues key acc).map (Option.map Value.truncated) =
      key.cells ++ [acc.value.map Value.int] := Aggregate.cells_answerRow schema key acc
  have hwidth : (answerValues key acc).length = key.cells.length + 1 := by
    cases key <;> rfl
  rw [hrow, Row.ofCells_eq_of_le hlength htypes, hcells, hwidth]
  unfold GroupKey.row
  rw [List.append_assoc]
  rfl

/-- The rows `answer` are those of the groups of `rows` under the schema: there is one for each key
that occurs, with the function of the numbers of its group. -/
def Batched (fn : AggregateFn) (field : Nat) (groupField : Option Nat) (schema : Schema)
    (rows answer : List Row) : Prop :=
  ∃ keys : List GroupKey, keys.Perm (rows.map (GroupKey.ofRow groupField)).dedup ∧
    List.Forall₂ (fun key row => ∃ reduced : Option Int64, row = key.row schema reduced ∧
      reduced.map Int64.toInt = fn.reduce (GroupKey.rowsOf groupField key rows).length
        (Row.integers field (GroupKey.rowsOf groupField key rows))) keys answer

/-- Under a schema with columns for the keys of the rows taken, the groups have the rows of grouping
and reducing at once. -/
theorem Summary.batched [Listing] (h : Summary blank kept g)
    (hreads : ∀ row ∈ kept, blank.Reads row) (hfew : kept.length < 2 ^ 63)
    (hroom : ∀ row ∈ kept, HasRoom schema (GroupKey.ofRow (blank.group.map Prod.fst) row)) :
    ∃ answer, g.rows schema = .ok answer ∧
      Batched blank.fn blank.field (blank.group.map Prod.fst) schema kept answer := by
  have hrows : ∀ group ∈ g.groups, Grouping.row schema group.1 group.2 =
      .ok (group.1.row schema group.2.value) := by
    rintro ⟨key, acc⟩ hmem
    -- the key is that of a row
    obtain ⟨row, hrow, rfl⟩ := (h.mem_keys_iff hreads key).1 (List.mem_map_of_mem hmem)
    exact row_of_hasRoom (hroom row hrow) acc
  refine ⟨_, rows_of_row (fun key acc => key.row schema acc.value) hrows, g.listed.map Prod.fst,
    (g.listed_perm.map Prod.fst).trans (h.keys_perm hreads), ?_⟩
  rw [List.forall₂_map_left_iff, List.forall₂_map_right_iff, List.forall₂_same]
  rintro ⟨key, acc⟩ hmem
  exact ⟨acc.value, rfl, h.value_eq hreads hfew (mem_listed.1 hmem)⟩

/-! ## After any calls -/

/-- After any calls on a grouping, the next row is refused exactly if it has no aggregated or no group
column, if its cell is a string and rows are not counted, or if the sum of its group would leave the
64-bit integers, and a row that is refused changes nothing. The groups are as many as the keys of the
rows that were taken since the groups were last cleared, and under every schema with columns for these
keys they have the rows that grouping and reducing all of these rows at once makes. -/
theorem log_exact [Listing] {inputType : DataType} {groupField : Option Nat}
    {groupType : Option DataType} {field : Nat} {fn : AggregateFn} {blank : Grouping}
    (hmake : Grouping.make inputType groupField groupType field fn = .ok blank)
    (actions : List Action) (hfew : actions.length < 2 ^ 63) :
    let reached := (blank.log actions).grouping
    let kept := (blank.log actions).kept
    (∀ row, (∃ e, reached.merge row = .error e) ↔ Refuses fn field groupField kept row) ∧
      (∀ row, reached.take row = match reached.merge row with
        | .ok g => (.ok (), g)
        | .error e => (.error e, reached)) ∧
      reached.count = (kept.map (GroupKey.ofRow groupField)).dedup.length ∧
      ∀ schema, (∀ row ∈ kept, HasRoom schema (GroupKey.ofRow groupField row)) →
        ∃ answer, reached.rows schema = .ok answer ∧
          Batched fn field groupField schema kept answer := by
  obtain ⟨hsupports, group, hsettings, rfl, -⟩ := Aggregate.of_make_grouping hmake
  have hblank : blank.groups = [] := by rw [hsettings]
  obtain ⟨hsummary, hreads⟩ := accounted_log hblank actions
  subst hsettings
  intro reached kept
  have hlength : kept.length < 2 ^ 63 := Nat.lt_of_le_of_lt (length_kept_log _ actions) hfew
  refine ⟨merge_fails_iff hsupports hsummary hreads, take_eq reached, ?_, fun schema hroom => ?_⟩
  · rw [← (hsummary.keys_perm hreads).length_eq, List.length_map]
    rfl
  · exact hsummary.batched hreads hlength hroom

/-- A sum by the first column that was cleared once. Of the rows since then, one would take the sum of
its group out of range, one is too short and one has a string; one has neither a key nor a number. -/
theorem log_exact_of_refusals :
    let row (cells : List (Option Value)) : Row := { schema := ⟨[]⟩, cells }
    let blank : Grouping := { inputType := .int, group := some (0, .int), field := 1, fn := .sum }
    let actions : List Action := [
      .take (row [some (.int 2), some (.int 5)]), .clear,
      .take (row [some (.int 1), some (.int Int64.maxValue)]),
      .take (row [some (.int 1), some (.int 1)]), .take (row [some (.int 2)]),
      .take (row [some (.int 3), some (.str "x")]), .take (row [none, none])]
    let kept := [row [some (.int 1), some (.int Int64.maxValue)], row [none, none]]
    Grouping.make .int (some 0) (some .int) 1 .sum = .ok blank ∧ actions.length < 2 ^ 63 ∧
      (blank.log actions).kept = kept ∧ (blank.log actions).grouping.count = 2 ∧
      Refuses .sum 1 (some 0) kept (row [some (.int 1), some (.int 1)]) ∧
      ∃ answer, (blank.log actions).grouping.rows (Schema.ofTypes [.int, .int, .str]) = .ok answer ∧
        Batched .sum 1 (some 0) (Schema.ofTypes [.int, .int, .str]) kept answer := by
  intro row blank actions kept
  have hkept : (blank.log actions).kept = kept := by decide
  obtain ⟨hfails, -, -, hrows⟩ :=
    log_exact (show Grouping.make .int (some 0) (some .int) 1 .sum = .ok blank from rfl) actions
      (by decide)
  rw [hkept] at hfails hrows
  have hrefused : (blank.log actions).grouping.merge (row [some (.int 1), some (.int 1)]) =
      .error (.sumOverflow Int64.maxValue 1) := by decide
  refine ⟨rfl, by decide, hkept, by decide, (hfails _).1 ⟨_, hrefused⟩, hrows _ ?_⟩
  intro row hrow
  rcases List.mem_cons.1 hrow with rfl | hrow
  · exact ⟨rfl, rfl⟩
  · obtain rfl := List.mem_singleton.1 hrow
    rfl

end Grouping

end RowStream
