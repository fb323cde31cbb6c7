import RowStream.Proofs.Join.Blockwise
import RowStream.Proofs.Stream.Fetches

/-!
# `RowStream.Proofs.Join.Fetches` — how often a join reads its sides

Of each side no more is known than its rows and what a pass over it costs. How many passes a join makes
then follows from its strategy: the left side is read once, and the right side once for each left row,
once for each left block, once, or not at all.

## Contents
- `nestedLoop_fetches`, `blockNestedLoop_fetches`, `sortMerge_fetches`, `hash_fetches` — what each
  strategy costs.
- `Join.passes` — how often each side is read.
- `compute_fetches`, `start_fetches`, `rewind_fetches` — finding the rows, and opening and rewinding.
-/

namespace RowStream.Join

open Call Cursor

variable {σ τ : Type} [Cursor σ] [Cursor τ] {store : PageStore} {x : TableId} {p : Predicate}
  {schema : Schema} {left right : List Row} {kl kr : Nat} {s : σ} {t : τ}

/-! ## Row by row -/

/-- One left row costs a pass over the right side. -/
theorem scanRight_fetches (hr : Rescans store x right kr t) (out : Array Row) (row : Row) :
    Fetches store x (Reaches store t) (scanRight p schema out row) fun _ n u =>
      n = kr ∧ Reaches store t u := hr.foldAny _ out

/-- Each left row costs a pass over the right side. -/
theorem nestedLoop_fetches (hl : Rescans store x left kl s) (hr : Rescans store x right kr t) :
    Fetches store x (· = (s, t)) (nestedLoop p schema) fun _ n _ => n = kl + left.length * kr := by
  have hscan : ∀ (seen : List Row) (row : Row) (out : Array Row) (m : Nat),
      Fetches store x (fun u => m = seen.length * kr ∧ Reaches store t u) (scanRight p schema out row)
        fun _ n u => m + n = (seen ++ [row]).length * kr ∧ Reaches store t u := by
    intro seen row out m
    apply Fetches.given
    rintro rfl
    refine (scanRight_fetches hr out row).imp (fun _ => id) ?_
    rintro _ n u ⟨rfl, hu⟩
    refine ⟨?_, hu⟩
    rw [List.length_append, List.length_singleton, Nat.succ_mul]
  unfold nestedLoop
  rw [← bind_assoc]
  have hloop := hl.foldWith (I := fun seen _ m u => m = seen.length * kr ∧ Reaches store t u) hscan #[]
  refine (hloop.imp ?_ fun _ _ _ => id).bind fun out n => Fetches.pure ?_
  · rintro _ rfl
    exact ⟨.refl, (Nat.zero_mul kr).symm, .refl⟩
  · rintro _ ⟨-, m, rfl, rfl, -⟩
    rfl

/-! ## By blocks -/

theorem leftBlocks_of_pushRight {run run' : BlockRun} {row : Row}
    (h : run.pushRight p schema row = .ok run') : run'.leftBlocks = run.leftBlocks := by
  unfold BlockRun.pushRight at h
  cases hpush : run.right.push row with
  | error e => simp [hpush, bind, Except.bind] at h
  | ok block =>
    simp only [hpush, bind, Except.bind, mapError_ok, pure, Except.pure, Except.ok.injEq] at h
    rw [← h]
    by_cases hfull : block.isFull <;> simp [hfull, BlockRun.joinBlocks]

/-- One left block costs a pass over the right side. -/
theorem drainRight_fetches (hr : Rescans store x right kr t) (run : BlockRun) :
    Fetches store x (Reaches store t) (run.drainRight p schema) fun run' n u =>
      (n = kr ∧ run'.leftBlocks = run.leftBlocks + 1) ∧ Reaches store t u := by
  unfold BlockRun.drainRight
  rw [← bind_assoc]
  refine (hr.fold (J := fun _ run' => run'.leftBlocks = run.leftBlocks + 1) ?_ rfl).bind
    fun run' n => Fetches.pure ?_
  · intro _ row run₁ run₂ h₁ h₂
    rw [leftBlocks_of_pushRight h₂, h₁]
  · rintro u ⟨⟨rfl, hblocks⟩, hu⟩
    refine ⟨⟨rfl, ?_⟩, hu⟩
    by_cases hempty : run'.right.rows.isEmpty <;> simp [hempty, BlockRun.joinBlocks, hblocks]

/-- One more left row costs a pass if it fills the block. -/
theorem pushLeft_fetches (hr : Rescans store x right kr t) (run : BlockRun) (row : Row) (m : Nat) :
    Fetches store x (fun u => m = run.leftBlocks * kr ∧ Reaches store t u)
      (run.pushLeft p schema row) fun run' n u =>
        m + n = run'.leftBlocks * kr ∧ Reaches store t u := by
  refine Fetches.given fun hm => ?_
  unfold BlockRun.pushLeft
  refine Fetches.bindFree (E := fun _ _ => True) (fun _ => rfl) (Triple.ofExcept
    (Q := fun _ => Reaches store t) (fun _ _ hu _ => hu) fun _ _ _ _ => trivial) fun block => ?_
  by_cases hfull : block.isFull
  · simp only [hfull, if_true]
    refine (drainRight_fetches hr _).imp (fun _ => id) ?_
    rintro run' n u ⟨⟨rfl, hblocks⟩, hu⟩
    refine ⟨?_, hu⟩
    rw [hm, hblocks, Nat.succ_mul]
  · simp only [hfull]
    exact Fetches.pure fun _ hu => ⟨hm, hu⟩

/-- What the join reports as its passes over the right side is what they cost. -/
theorem blockNestedLoop_fetches (hl : Rescans store x left kl s) (hr : Rescans store x right kr t)
    (leftBlock rightBlock : Block Row) :
    Fetches store x (· = (s, t)) (blockNestedLoop p schema leftBlock rightBlock) fun found n _ =>
      n = kl + found.2.rightScans * kr := by
  unfold blockNestedLoop
  rw [← bind_assoc]
  have hpush : ∀ (seen : List Row) (row : Row) (run : BlockRun) (m : Nat),
      Fetches store x (fun u => m = run.leftBlocks * kr ∧ Reaches store t u)
        (run.pushLeft p schema row) fun run' n u =>
          m + n = run'.leftBlocks * kr ∧ Reaches store t u :=
    fun _ row run m => pushLeft_fetches hr run row m
  have hloop := hl.foldWith
    (I := fun _ (run : BlockRun) m u => m = run.leftBlocks * kr ∧ Reaches store t u) hpush
    { left := leftBlock, right := rightBlock }
  refine (hloop.imp ?_ fun _ _ _ => id).bind fun run n => ?_
  · rintro _ rfl
    exact ⟨.refl, (Nat.zero_mul kr).symm, .refl⟩
  by_cases hempty : run.left.rows.isEmpty
  · simp only [hempty, if_true, pure_bind]
    apply Fetches.pure
    rintro _ ⟨-, m, rfl, rfl, -⟩
    rfl
  · -- the rows that are left are one more block
    simp only [hempty, if_false, Bool.false_eq_true]
    refine Fetches.each ?_
    rintro ⟨s', t'⟩ ⟨hs, m, rfl, rfl, ht⟩
    have hlast : Fetches store x (· = (s', t')) (Call.onRight (run.drainRight p schema))
        fun run' n _ => n = kr ∧ run'.leftBlocks = run.leftBlocks + 1 := by
      refine ((drainRight_fetches hr run).onRight (F := Reaches store s)).imp ?_
        fun _ _ _ hdone => hdone.2.1
      rintro _ rfl
      exact ⟨hs, ht⟩
    refine hlast.bind fun run' n => Fetches.pure ?_
    rintro _ ⟨rfl, hblocks⟩
    show _ = kl + run'.leftBlocks * n
    rw [hblocks, Nat.succ_mul]
    omega

/-! ## Sorted, and by a table -/

theorem sortedRun_fetches [Sorting] (h : Rescans store x left kl s) (field : Nat) :
    Fetches store x (Reaches store s) (sortedRun field : Call σ (List Keyed)) fun _ n s' =>
      n = kl ∧ Reaches store s s' := by
  unfold sortedRun
  rw [← bind_assoc]
  exact h.drain.bind fun _ _ => Fetches.pure fun _ hdone => hdone

/-- Both sides are read, unless no two values can be compared. -/
theorem sortMerge_fetches [Sorting] (hl : Rescans store x left kl s)
    (hr : Rescans store x right kr t) {lt rt : DataType}
    (htl : (Cursor.schema s).types[p.leftField]? = some lt)
    (htr : (Cursor.schema t).types[p.rightField]? = some rt) :
    Fetches store x (· = (s, t)) (sortMerge p schema) fun _ n _ =>
      n = if lt = rt then kl + kr else 0 := by
  refine Fetches.getBindAt ?_
  simp only [Schema.fieldType_eq_ok_iff.2 htl, Schema.fieldType_eq_ok_iff.2 htr, mapError_ok]
  show Fetches store x _ (pure lt >>= fun lt => pure rt >>= fun rt => _) _
  rw [pure_bind, pure_bind]
  by_cases htypes : lt = rt
  · rw [if_pos htypes, if_pos htypes]
    refine Fetches.bind (R := fun _ n st => n = kl ∧ Reaches store t st.2) ?_ fun _ n =>
      Fetches.given fun hn => ?_
    · refine ((sortedRun_fetches hl p.leftField).onLeft (F := Reaches store t)).imp ?_ ?_
      · rintro _ rfl
        exact ⟨.refl, .refl⟩
      · exact fun _ _ _ hdone => ⟨hdone.1.1, hdone.2⟩
    refine Fetches.bind (R := fun _ n _ => n = kr) ?_ fun _ n => Fetches.pure ?_
    · refine ((sortedRun_fetches hr p.rightField).onRight (F := fun _ => True)).imp ?_ ?_
      · exact fun _ ht => ⟨trivial, ht⟩
      · exact fun _ _ _ hdone => hdone.2.1
    · rintro _ rfl
      rw [hn, Nat.add_zero]
  · rw [if_neg htypes, if_neg htypes]
    exact Fetches.pure fun _ _ => rfl

/-- Whether a row has a value at `field`. -/
def hasKey (field : Nat) (row : Row) : Bool := (row.get? field).isSome

/-- The table is left empty by rows without a value, and by no others. -/
theorem isEmpty_tabulate (field : Nat) (rows : List Row) :
    (tabulate field rows).isEmpty = !rows.any (hasKey field) := by
  rw [Bool.eq_iff_iff, isEmpty_tabulate_iff]
  simp [hasKey]

/-- The left side is read, and the right side if any left row has a value. -/
theorem hash_fetches (hl : Rescans store x left kl s) (hr : Rescans store x right kr t) :
    Fetches store x (· = (s, t)) (hash p schema) fun _ n _ =>
      n = kl + if left.any (hasKey p.leftField) then kr else 0 := by
  unfold hash
  by_cases hop : p.op = .eq
  · rw [if_pos hop, ← bind_assoc, ← onLeft_bind]
    refine Fetches.bind (R := fun buckets n st =>
      (n = kl ∧ buckets = tabulate p.leftField left) ∧ Reaches store t st.2) ?_ fun buckets n =>
        Fetches.given ?_
    · have htable := hl.fold (f := fun buckets row => .ok (addRow p.leftField buckets row))
        (J := fun seen buckets => buckets = tabulate p.leftField seen) ?_ (b := ∅) rfl
      · refine (htable.onLeft (F := Reaches store t)).imp ?_ ?_
        · rintro _ rfl
          exact ⟨.refl, .refl⟩
        · exact fun _ _ _ hdone => ⟨hdone.1.1, hdone.2⟩
      · intro seen row buckets buckets' hbuckets hrow
        rw [tabulate_concat, ← hbuckets]
        exact (Except.ok.inj hrow).symm
    rintro ⟨rfl, rfl⟩
    rw [isEmpty_tabulate]
    cases left.any (hasKey p.leftField) with
    | false => exact Fetches.pure fun _ _ => rfl
    | true =>
      simp only [Bool.not_true, Bool.false_eq_true, if_false, if_true]
      rw [← bind_assoc, ← onRight_bind]
      have hprobes := hr.foldAny (fun out right => .ok (out ++
        (probe p.rightField (tabulate p.leftField left) right).map (·.append right schema))) #[]
      refine Fetches.bind (R := fun _ n _ => n = kr) ?_ fun out n => Fetches.pure ?_
      · refine (hprobes.onRight (F := fun _ => True)).imp ?_ ?_
        · exact fun _ ht => ⟨trivial, ht⟩
        · exact fun _ _ _ hdone => hdone.2.1
      · rintro _ rfl
        rfl
  · rw [if_neg hop]
    exact Fetches.fail _

/-! ## Finding the rows -/

/-- A fresh left block is filled once for each chunk of the left rows. -/
theorem blockNestedLoop_fetches_of_fresh (hl : Rescans store x left kl s)
    (hr : Rescans store x right kr t) {leftBlock rightBlock : Block Row} {cl cr : Nat}
    (hlb : leftBlock.Fresh cl) (hrb : rightBlock.Fresh cr) :
    Fetches store x (· = (s, t)) (blockNestedLoop p schema leftBlock rightBlock) fun _ n _ =>
      n = kl + left.length ⌈/⌉ cl * kr := by
  rintro _ found rfl hfound
  have hcost := blockNestedLoop_fetches hl hr leftBlock rightBlock (s, t) found rfl hfound
  rw [blockNestedLoop_result hl.redrains hr.redrains p schema hlb hrb] at hfound
  cases hfound
  exact hcost

omit [Cursor σ] [Cursor τ] in
/-- Asking for a block reads nothing. -/
theorem reads_makeBlock (rowBytes : Nat) (tag : String) (j : Join σ τ) :
    (makeBlock rowBytes tag store j).reads = [] := by
  rw [makeBlock_apply]
  cases (Block.make j.budget j.bufferBytes rowBytes tag : Except MemoryError (Block Row × Budget)) <;>
    rfl

variable {j : Join σ τ}

theorem computeByBlocks_fetches
    (hfields : checkFields j.predicate (Cursor.schema j.left) (Cursor.schema j.right) = .ok ())
    (hl : Rescans store x left kl j.left) (hr : Rescans store x right kr j.right) :
    Fetches store x (· = j) computeByBlocks fun _ n _ => n = kl + left.length ⌈/⌉ j.leftRoom * kr := by
  obtain ⟨hroom, -⟩ := rowsFor_eq_room hfields
  refine Fetches.getBindAt ?_
  refine Fetches.bindFree (reads_makeBlock _ _) (makeBlock_fresh _ _ j) fun leftBlock =>
    Fetches.ensuring (Fetches.each ?_)
  rintro j₁ ⟨hlb, hl₁, hr₁, -⟩
  rw [hroom] at hlb
  refine Fetches.bindFree (reads_makeBlock _ _) (makeBlock_fresh _ _ j₁) fun rightBlock =>
    Fetches.ensuring (Fetches.each ?_)
  rintro j₂ ⟨hrb, hl₂, hr₂, -⟩
  refine Fetches.bind (R := fun _ n _ => n = kl + left.length ⌈/⌉ j.leftRoom * kr)
    (Fetches.zoom ?_) fun found n => ?_
  · rintro _ rfl
    rw [hl₂, hl₁, hr₂, hr₁]
    exact blockNestedLoop_fetches_of_fresh hl hr hlb hrb
  · -- noting what was done reads nothing
    refine Fetches.bindFree (E := fun _ _ => True) (fun _ => rfl) (Triple.modify
      (Q := fun _ _ => n = kl + left.length ⌈/⌉ j.leftRoom * kr) fun _ hn => hn) fun _ => ?_
    exact Fetches.pure fun _ hn => hn

/-- How often a join reads its left and its right side, from the rows of the left one: the right side
once for each left row, once for each block of them, or once if any of them can have a partner; and no
side at all if the columns of the condition are of different types and the sides would be sorted. -/
def passes (j : Join σ τ) (left : List Row) : Nat × Nat :=
  match j.strategy with
  | .nestedLoop => (1, left.length)
  | .blockNestedLoop => (1, left.length ⌈/⌉ j.leftRoom)
  | .sortMerge =>
    if (Cursor.schema j.left).types[j.predicate.leftField]? =
      (Cursor.schema j.right).types[j.predicate.rightField]? then (1, 1) else (0, 0)
  | .hash => (1, if left.any (hasKey j.predicate.leftField) then 1 else 0)

/-- Finding the rows costs so many passes over the sides. -/
theorem compute_fetches [Sorting]
    (hfields : checkFields j.predicate (Cursor.schema j.left) (Cursor.schema j.right) = .ok ())
    (hl : Rescans store x left kl j.left) (hr : Rescans store x right kr j.right) :
    Fetches store x (· = j) compute fun _ n _ =>
      n = (j.passes left).1 * kl + (j.passes left).2 * kr := by
  obtain ⟨⟨lt, htl⟩, ⟨rt, htr⟩⟩ := types_of_checkFields hfields
  refine Fetches.getBindAt ?_
  unfold passes
  cases j.strategy with
  | nestedLoop =>
    refine Fetches.zoom ?_
    rintro _ rfl
    refine (nestedLoop_fetches hl hr).imp (fun _ => id) fun _ n _ hn => ?_
    rw [hn, Nat.one_mul]
  | blockNestedLoop =>
    refine (computeByBlocks_fetches hfields hl hr).imp (fun _ => id) fun _ n _ hn => ?_
    rw [hn, Nat.one_mul]
  | sortMerge =>
    refine Fetches.zoom ?_
    rintro _ rfl
    refine (sortMerge_fetches hl hr htl htr).imp (fun _ => id) fun _ n _ hn => ?_
    rw [hn, htl, htr]
    by_cases htypes : lt = rt <;> simp [htypes]
  | hash =>
    refine Fetches.zoom ?_
    rintro j rfl
    refine (hash_fetches hl hr).imp (fun _ => id) fun _ n _ hn => ?_
    rw [hn]
    cases left.any (hasKey j.predicate.leftField) <;> simp

/-! ## Opening and rewinding -/

/-- The join `j` when both its sides have begun. -/
structure Begun (store : PageStore) (x : TableId) (left right : List Row) (kl kr : Nat)
    (j j' : Join σ τ) : Prop where
  /-- All that is not a side or a row to come has stayed. -/
  settings_eq : { j' with left := j.left, right := j.right, pending := j.pending } = j
  /-- The left side has kept its columns. -/
  left_schema : Cursor.schema j'.left = Cursor.schema j.left
  /-- The right side has kept its columns. -/
  right_schema : Cursor.schema j'.right = Cursor.schema j.right
  /-- What passes over the left side cost. -/
  left_rescans : Rescans store x left kl j'.left
  /-- What passes over the right side cost. -/
  right_rescans : Rescans store x right kr j'.right

/-- The sides play no part in the number of passes but for their columns. -/
theorem Begun.passes_eq {j' : Join σ τ} (h : Begun store x left right kl kr j j') (rows : List Row) :
    j'.passes rows = j.passes rows := by
  unfold passes leftRoom
  rw [h.left_schema, h.right_schema, ← h.settings_eq]

/-- Where both sides have begun, finding and keeping the rows costs so many passes. -/
theorem materialize_fetches [Sorting]
    (hfields : checkFields j.predicate (Cursor.schema j.left) (Cursor.schema j.right) = .ok ()) :
    Fetches store x (Begun store x left right kl kr j) materialize fun _ n _ =>
      n = (j.passes left).1 * kl + (j.passes left).2 * kr := by
  refine Fetches.each fun j' hj' => ?_
  have hpredicate : j'.predicate = j.predicate := (congrArg Join.predicate hj'.settings_eq : _)
  have hfields' : checkFields j'.predicate (Cursor.schema j'.left) (Cursor.schema j'.right) = .ok () := by
    rw [hpredicate, hj'.left_schema, hj'.right_schema]
    exact hfields
  have hcompute := compute_fetches hfields' hj'.left_rescans hj'.right_rescans
  rw [hj'.passes_eq] at hcompute
  unfold materialize
  exact hcompute.onError.bind fun _ _ => Fetches.modify fun _ hn => hn

omit [Cursor τ] in
/-- The left side begins. -/
theorem onLeft_begins {c : Call σ Unit} (hl : Begins store x left kl c j.left) :
    Fetches store x (· = j) (onLeft c) fun _ n j' => n = 0 ∧ ∃ l, j' = { j with left := l } ∧
      Rescans store x left kl l ∧ Cursor.schema l = Cursor.schema j.left := by
  refine Fetches.zoom ?_
  rintro _ rfl
  exact hl.imp (fun _ => id) fun _ n l hdone => ⟨hdone.1, l, rfl, hdone.2⟩

/-- Then the right side begins. -/
theorem onRight_begins {d : Call τ Unit} {l : σ} (hleft : Rescans store x left kl l)
    (hschema : Cursor.schema l = Cursor.schema j.left) (hr : Begins store x right kr d j.right) :
    Fetches store x (· = { j with left := l }) (onRight d) fun _ n j' =>
      n = 0 ∧ Begun store x left right kl kr j j' := by
  refine Fetches.zoom ?_
  rintro _ rfl
  refine hr.imp (fun _ => id) ?_
  rintro _ n r ⟨hn, hright, hschema'⟩
  exact ⟨hn, rfl, hschema, hschema', hleft, hright⟩

/-- Opening a join costs so many passes, if opening its sides costs nothing. -/
theorem start_fetches [Sorting]
    (hfields : checkFields j.predicate (Cursor.schema j.left) (Cursor.schema j.right) = .ok ())
    (hl : Begins store x left kl Cursor.start j.left)
    (hr : Begins store x right kr Cursor.start j.right) :
    Fetches store x (· = j) start fun _ n _ =>
      n = (j.passes left).1 * kl + (j.passes left).2 * kr := by
  refine Fetches.getBindAt ?_
  by_cases hopen : j.pending.isSome = true
  · rw [if_pos hopen]
    exact Fetches.fail _
  · rw [if_neg hopen]
    refine (onLeft_begins hl).bind fun _ n => Fetches.each ?_
    rintro _ ⟨rfl, l, rfl, hleft, hschema⟩
    refine (onRight_begins hleft hschema hr).onError.bind fun _ n => Fetches.given fun hn => ?_
    simp only [hn, Nat.zero_add]
    exact materialize_fetches hfields

/-- Rewinding a join costs so many passes, if rewinding its sides costs nothing. -/
theorem rewind_fetches [Sorting]
    (hfields : checkFields j.predicate (Cursor.schema j.left) (Cursor.schema j.right) = .ok ())
    (hl : Begins store x left kl Cursor.rewind j.left)
    (hr : Begins store x right kr Cursor.rewind j.right) :
    Fetches store x (· = j) rewind fun _ n _ =>
      n = (j.passes left).1 * kl + (j.passes left).2 * kr := by
  refine Fetches.getBindAt ?_
  by_cases hclosed : j.pending.isNone = true
  · rw [if_pos hclosed]
    exact Fetches.fail _
  · rw [if_neg hclosed]
    have hsides : Fetches store x (· = j)
        (do onLeft Cursor.rewind; onRight Cursor.rewind : Call (Join σ τ) Unit) fun _ n j' =>
          n = 0 ∧ Begun store x left right kl kr j j' := by
      refine (onLeft_begins hl).bind fun _ n => Fetches.each ?_
      rintro _ ⟨rfl, l, rfl, hleft, hschema⟩
      refine (onRight_begins hleft hschema hr).imp (fun _ => id) ?_
      rintro _ n j' ⟨rfl, hbegun⟩
      exact ⟨rfl, hbegun⟩
    refine hsides.onError.bind fun _ n => Fetches.given fun hn => ?_
    simp only [hn, Nat.zero_add]
    -- the rows that were still to come are forgotten first
    refine Fetches.bindFree (E := fun _ _ => True) (fun _ => rfl)
      (Triple.modify (Q := fun _ => Begun store x left right kl kr j) ?_) fun _ =>
        materialize_fetches hfields
    intro j' hj'
    exact { hj' with settings_eq := hj'.settings_eq }

end RowStream.Join
