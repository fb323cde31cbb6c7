import RowStream.Proofs.Join.Settings
import RowStream.Proofs.Join.SortMerge
import RowStream.Proofs.Stream.Keeps

/-!
# `RowStream.Proofs.Join.Keeps` — finding the rows keeps what reading the sides keeps

Whatever the strategy, a join finds its rows by reading its sides, and fails either as they do or
for a reason of its own, which is never a call in the wrong state, and has to do with the columns only
if one that the condition names is missing. Every row that is found is made of a left and a right row.
Nothing is assumed of the scripts of the sides, nor that there are any.

## Contents
- `Join.Paired` — rows that are made of a left and a right row.
- `Join.Kept`, `Join.Failed`, `Join.Fields` — what is left of the sides, and what is asked of the
  columns of the condition.
- `BlockRun.Holds` — the blocks hold rows of their sides.
- `nestedLoop_yields`, `blockNestedLoop_yields`, `sortMerge_yields`, `hash_yields` — the strategies.
- `Join.compute_yields` — the join, with its settings and its account.
-/

namespace RowStream.Join

open Call

/-- A row is made of a left row of `P` and a right row of `Q`. -/
def Paired (P Q : Row → Prop) (schema : Schema) (row : Row) : Prop :=
  ∃ l r, P l ∧ Q r ∧ l.append r schema = row

variable {σ τ α : Type} {store : PageStore} {P Q : Row → Prop} {F : StreamError → Prop}
  {I K : σ → Prop} {J M : τ → Prop} {p : Predicate} {schema : Schema}

/-- Both sides are as they were. -/
def Kept (I : σ → Prop) (J : τ → Prop) (s : σ × τ) : Prop := I s.1 ∧ J s.2

/-- A failure of one of `F`, and what it leaves of the sides. -/
def Failed (F : StreamError → Prop) (K : σ → Prop) (M : τ → Prop) (e : StreamError) (s : σ × τ) :
    Prop := F e ∧ K s.1 ∧ M s.2

/-- The rows that are found are made of rows of both sides. -/
def Found (P Q : Row → Prop) (schema : Schema) (rows : List Row) : Prop :=
  ∀ row ∈ rows, Paired P Q schema row

/-- What the left side comes with, both come with. -/
theorem onLeft_keeps (hJM : ∀ {t}, J t → M t) {R : α → Prop} {c : Call σ α}
    (h : Triple store I c (fun a s => R a ∧ I s) (fun e s => F e ∧ K s)) :
    Triple store (Kept I J) (Call.onLeft c) (fun a s => R a ∧ Kept I J s) (Failed F K M) := by
  refine (h.onLeft (F := J)).imp (fun _ => id) ?_ ?_
  · rintro a s ⟨⟨ha, hi⟩, hj⟩
    exact ⟨ha, hi, hj⟩
  · rintro e s ⟨⟨he, hk⟩, hj⟩
    exact ⟨he, hk, hJM hj⟩

/-- What the right side comes with, both come with. -/
theorem onRight_keeps (hIK : ∀ {s}, I s → K s) {R : α → Prop} {c : Call τ α}
    (h : Triple store J c (fun a t => R a ∧ J t) (fun e t => F e ∧ M t)) :
    Triple store (Kept I J) (Call.onRight c) (fun a s => R a ∧ Kept I J s) (Failed F K M) := by
  refine (h.onRight (F := I)).imp (fun _ => id) ?_ ?_
  · rintro a s ⟨hi, ha, hj⟩
    exact ⟨ha, hi, hj⟩
  · rintro e s ⟨hi, he, hm⟩
    exact ⟨he, hIK hi, hm⟩

section Rewinding

variable [Cursor σ]

/-- Going back to the first left row. -/
theorem rewindLeft_keeps (hl : Cursor.Yields store P F I K) (hJM : ∀ {t}, J t → M t) :
    Triple store (Kept I J) (Call.onLeft Cursor.rewind) (fun _ => Kept I J) (Failed F K M) := by
  refine (hl.rewind.onLeft (F := J)).imp (fun _ => id) (fun _ _ => id) ?_
  rintro e s ⟨⟨he, hk⟩, hj⟩
  exact ⟨he, hk, hJM hj⟩

end Rewinding

section Rewinding

variable [Cursor τ]

/-- Going back to the first right row. -/
theorem rewindRight_keeps (hr : Cursor.Yields store Q F J M) (hIK : ∀ {s}, I s → K s) :
    Triple store (Kept I J) (Call.onRight Cursor.rewind) (fun _ => Kept I J) (Failed F K M) := by
  refine (hr.rewind.onRight (F := I)).imp (fun _ => id) (fun _ _ => id) ?_
  rintro e s ⟨hi, he, hm⟩
  exact ⟨he, hIK hi, hm⟩

end Rewinding

variable [Cursor σ] [Cursor τ]

/-- A column of the condition that its side does not have is a failure of `F`. -/
def Fields (p : Predicate) (F : StreamError → Prop) (I : σ → Prop) (J : τ → Prop) : Prop :=
  ∀ l r e, I l → J r → (Cursor.schema l).fieldType p.leftField = .error e ∨
    (Cursor.schema r).fieldType p.rightField = .error e → F (.data e)

/-! ## The strategies -/

section Strategies

variable (hl : Cursor.Yields store P F I K) (hr : Cursor.Yields store Q F J M)
  (hF : ∀ e : StreamError, e.isUsage = false → e.isTyping = false → F e)

omit [Cursor σ] in
include hr in
/-- A left row is paired up with right rows. -/
theorem scanRight_yields {out : Array Row} {l : Row} (hout : ∀ row ∈ out, Paired P Q schema row)
    (hrow : P l) :
    Triple store J (scanRight p schema out l)
      (fun out t => (∀ row ∈ out, Paired P Q schema row) ∧ J t) (fun e t => F e ∧ M t) := by
  refine hr.rewindFold (A := fun out : Array Row => ∀ row ∈ out, Paired P Q schema row) ?_ ?_ hout
  · rintro out r _ hout hright ⟨⟩ row hmem
    by_cases hholds : p.holds l r
    · rw [if_pos hholds] at hmem
      rcases Array.mem_push.1 hmem with hmem | rfl
      · exact hout row hmem
      · exact ⟨l, r, hrow, hright, rfl⟩
    · rw [if_neg hholds] at hmem
      exact hout row hmem
  · intro out r e _ _ he
    cases he

include hl hr in
theorem nestedLoop_yields :
    Triple store (Kept I J) (nestedLoop p schema)
      (fun rows s => Found P Q schema rows ∧ Kept I J s) (Failed F K M) := by
  refine Triple.bind (rewindLeft_keeps hl hr.weaken) fun _ => ?_
  refine Triple.bind (hl.foldWith hr.weaken
    (A := fun out : Array Row => ∀ row ∈ out, Paired P Q schema row)
    (fun out l hout hrow => scanRight_yields hr hout hrow) (by simp)) fun out => Triple.pure ?_
  rintro s ⟨hout, hs⟩
  exact ⟨fun row hrow => hout row (Array.mem_toList_iff.1 hrow), hs⟩

/-! ### By blocks -/

/-- The blocks hold rows of their sides, and what was found is made of such rows. -/
structure BlockRun.Holds (P Q : Row → Prop) (schema : Schema) (run : BlockRun) : Prop where
  /-- The left block. -/
  left : ∀ row ∈ run.left.rows.toList, P row
  /-- The right block. -/
  right : ∀ row ∈ run.right.rows.toList, Q row
  /-- The rows found so far. -/
  out : Found P Q schema run.out.toList

omit [Cursor σ] [Cursor τ] in
/-- A block takes rows of its side. -/
theorem forall_mem_of_push {block block' : Block Row} {row : Row}
    (h : ∀ r ∈ block.rows.toList, P r) (hrow : P row) (hpush : block.push row = .ok block') :
    ∀ r ∈ block'.rows.toList, P r := by
  intro r hr
  rw [Block.rows_of_push hpush] at hr
  rcases List.mem_append.1 hr with hr | hr
  · exact h r hr
  · rw [List.mem_singleton.1 hr]
    exact hrow

omit [Cursor σ] [Cursor τ] in
theorem BlockRun.Holds.joinBlocks {run : BlockRun} (h : run.Holds P Q schema) :
    (run.joinBlocks p schema).Holds P Q schema where
  left := h.left
  right := by
    intro row hrow
    cases hrow
  out := by
    intro row hrow
    have hout : row ∈ run.out.toList ++ p.join schema run.left.rows.toList run.right.rows.toList := by
      simpa [BlockRun.joinBlocks] using hrow
    rcases List.mem_append.1 hout with hout | hout
    · exact h.out row hout
    · obtain ⟨l, hleft, r, hright, -, rfl⟩ := Predicate.mem_join_iff.1 hout
      exact ⟨l, r, h.left l hleft, h.right r hright, rfl⟩

omit [Cursor σ] [Cursor τ] in
theorem BlockRun.Holds.pushRight {run run' : BlockRun} {row : Row} (h : run.Holds P Q schema)
    (hrow : Q row) (hpush : run.pushRight p schema row = .ok run') : run'.Holds P Q schema := by
  unfold BlockRun.pushRight at hpush
  cases hblock : run.right.push row with
  | error e => simp [hblock, bind, Except.bind] at hpush
  | ok right =>
    have hrun : BlockRun.Holds P Q schema { run with right } :=
      ⟨h.left, forall_mem_of_push h.right hrow hblock, h.out⟩
    simp only [hblock, Call.mapError_ok, bind, Except.bind, pure, Except.pure, Except.ok.injEq]
      at hpush
    subst hpush
    by_cases hfull : right.isFull
    · rw [if_pos hfull]
      exact hrun.joinBlocks
    · rw [if_neg hfull]
      exact hrun

omit [Cursor σ] [Cursor τ] in
include hF in
theorem pushRight_fails {run : BlockRun} {row : Row} {e : StreamError}
    (h : run.pushRight p schema row = .error e) : F e := by
  unfold BlockRun.pushRight at h
  cases hblock : run.right.push row with
  | ok right => simp [hblock, bind, Except.bind, pure, Except.pure] at h
  | error cause =>
    simp only [hblock, bind, Except.bind, Call.mapError_error, Except.error.injEq] at h
    subst h
    exact hF _ (by simp) (by simp)

omit [Cursor σ] in
include hr hF in
/-- One pass over the right side. -/
theorem drainRight_yields {run : BlockRun} (hrun : run.Holds P Q schema) :
    Triple store J (run.drainRight p schema) (fun run t => run.Holds P Q schema ∧ J t)
      (fun e t => F e ∧ M t) := by
  unfold BlockRun.drainRight
  rw [← bind_assoc]
  refine Triple.bind (hr.rewindFold (A := BlockRun.Holds P Q schema)
    (fun _ _ _ hrun hrow hpush => hrun.pushRight hrow hpush)
    (fun _ _ _ _ _ he => pushRight_fails hF he) ⟨hrun.left, hrun.right, hrun.out⟩) fun run =>
      Triple.pure ?_
  rintro t ⟨hrun, hj⟩
  refine ⟨?_, hj⟩
  -- what is left in the right block is joined, and the left block is emptied
  have hlast : (if run.right.rows.isEmpty then run else run.joinBlocks p schema).Holds P Q schema := by
    by_cases hempty : run.right.rows.isEmpty
    · rw [if_pos hempty]
      exact hrun
    · rw [if_neg hempty]
      exact hrun.joinBlocks
  refine ⟨?_, hlast.right, hlast.out⟩
  intro row hrow
  cases hrow

omit [Cursor σ] in
include hr hF in
/-- One more left row. -/
theorem pushLeft_yields {run : BlockRun} {row : Row} (hrun : run.Holds P Q schema) (hrow : P row) :
    Triple store J (run.pushLeft p schema row) (fun run t => run.Holds P Q schema ∧ J t)
      (fun e t => F e ∧ M t) := by
  unfold BlockRun.pushLeft
  refine Triple.bind (R := fun left t => run.left.push row = .ok left ∧ J t)
    (Triple.ofExcept ?_ ?_) fun left => Triple.given fun hpush => ?_
  · intro t left hj hleft
    refine ⟨?_, hj⟩
    cases hblock : run.left.push row with
    | ok left' =>
      rw [hblock] at hleft
      cases hleft
      rfl
    | error cause =>
      rw [hblock] at hleft
      cases hleft
  · intro t e hj he
    refine ⟨?_, hr.weaken hj⟩
    cases hblock : run.left.push row with
    | ok left' =>
      rw [hblock] at he
      cases he
    | error cause =>
      simp only [hblock, Call.mapError_error, Except.error.injEq] at he
      subst he
      exact hF _ (by simp) (by simp)
  · have hpushed : BlockRun.Holds P Q schema { run with left } :=
      ⟨forall_mem_of_push hrun.left hrow hpush, hrun.right, hrun.out⟩
    by_cases hfull : left.isFull
    · simp only [hfull, if_true]
      exact drainRight_yields hr hF hpushed
    · simp only [hfull]
      exact Triple.pure fun _ hj => ⟨hpushed, hj⟩

include hl hr hF in
theorem blockNestedLoop_yields (leftBlock rightBlock : Block Row)
    (hleft : ∀ row ∈ leftBlock.rows.toList, P row) (hright : ∀ row ∈ rightBlock.rows.toList, Q row) :
    Triple store (Kept I J) (blockNestedLoop p schema leftBlock rightBlock)
      (fun found s => Found P Q schema found.1 ∧ Kept I J s) (Failed F K M) := by
  have hstart : BlockRun.Holds P Q schema { left := leftBlock, right := rightBlock } := by
    refine ⟨hleft, hright, ?_⟩
    intro row hrow
    cases hrow
  unfold blockNestedLoop
  refine Triple.bind (rewindLeft_keeps hl hr.weaken) fun _ => ?_
  refine Triple.bind (hl.foldWith hr.weaken
    (fun run row hrun hrow => pushLeft_yields hr hF hrun hrow) hstart) fun run => ?_
  apply Triple.given
  intro hrun
  have hend : ∀ run : BlockRun, Triple store (fun s => run.Holds P Q schema ∧ Kept I J s)
      (pure (run.out.toList, run.stats)) (fun found s => Found P Q schema found.1 ∧ Kept I J s)
      (Failed F K M) := fun run => Triple.pure fun s hs => ⟨hs.1.out, hs.2⟩
  -- the last left block has its pass over the right side as well
  by_cases hempty : run.left.rows.isEmpty
  · simp only [hempty, if_true]
    refine Triple.bind (Triple.pure fun s hs => ⟨hrun, hs⟩) hend
  · simp only [hempty, if_false, Bool.false_eq_true]
    exact Triple.bind (onRight_keeps (I := I) (K := K) hl.weaken (drainRight_yields hr hF hrun)) hend

/-! ### By sorting -/

omit [Cursor τ] in
include hl in
/-- A sorted side is made of rows of that side. -/
theorem sortedRun_yields [Sorting] (field : Nat) :
    Triple store I (sortedRun field)
      (fun run s => (Sorted run ∧ ∀ row ∈ run.map (·.2), P row) ∧ I s) (fun e s => F e ∧ K s) := by
  refine Triple.bind hl.rewind fun _ => Triple.bind hl.drain fun rows => Triple.pure ?_
  rintro s ⟨hrows, hs⟩
  exact ⟨⟨sorted_sortRows field rows, fun row hrow => hrows row (mem_of_sortRows hrow)⟩, hs⟩

omit [Cursor σ] [Cursor τ] in
/-- The pairs of two sorted sides are found. -/
theorem found_sortedPairs {op : Comparison} {left right : List Keyed}
    (hleft : Sorted left ∧ ∀ row ∈ left.map (·.2), P row)
    (hright : Sorted right ∧ ∀ row ∈ right.map (·.2), Q row) :
    Found P Q schema ((sortedPairs op left right).map fun (l, r) => l.append r schema) := by
  intro row hrow
  obtain ⟨⟨l, r⟩, hpair, rfl⟩ := List.mem_map.1 hrow
  obtain ⟨hl, hr⟩ := mem_of_sortedPairs hleft.1 hright.1 hpair
  exact ⟨l, r, hleft.2 l hl, hright.2 r hr, rfl⟩

include hl hr in
theorem sortMerge_yields [Sorting] (hfields : Fields p F I J) :
    Triple store (Kept I J) (sortMerge p schema)
      (fun rows s => Found P Q schema rows ∧ Kept I J s) (Failed F K M) := by
  refine Triple.getBind fun s hs => Triple.atState (P := Kept I J) ?_ hs
  obtain ⟨l, r⟩ := s
  -- the columns are looked up before a side is read
  have hlookup : ∀ looked : Except DataError DataType,
      (∀ e, looked = .error e → F (.data e)) → Triple store (Kept I J)
        (Call.ofExcept (looked.mapError .data)) (fun _ => Kept I J) (Failed F K M) := by
    intro looked hlooked
    refine Triple.ofExcept (fun _ _ hs _ => hs) ?_
    intro s e hs he
    cases looked with
    | ok type => cases he
    | error cause =>
      cases he
      exact ⟨hlooked cause rfl, hl.weaken hs.1, hr.weaken hs.2⟩
  refine Triple.bind (hlookup _ fun e he => hfields l r e hs.1 hs.2 (.inl he)) fun leftType => ?_
  refine Triple.bind (hlookup _ fun e he => hfields l r e hs.1 hs.2 (.inr he)) fun rightType => ?_
  by_cases htypes : leftType = rightType
  · rw [if_pos htypes]
    refine Triple.bind (onLeft_keeps hr.weaken (sortedRun_yields hl _)) fun left => ?_
    refine Triple.given fun hleft => ?_
    refine Triple.bind (onRight_keeps hl.weaken (sortedRun_yields hr _)) fun right => ?_
    exact Triple.pure fun s hs => ⟨found_sortedPairs hleft hs.1, hs.2⟩
  · rw [if_neg htypes]
    refine Triple.pure fun s hs => ⟨?_, hs⟩
    intro row hrow
    cases hrow

/-! ### By a table -/

omit [Cursor σ] [Cursor τ] in
/-- The table is filled with left rows. -/
theorem mem_getD_addRow {field : Nat} {buckets : Buckets} {row : Row}
    (h : ∀ key, ∀ r ∈ buckets.getD key #[], P r) (hrow : P row) :
    ∀ key, ∀ r ∈ (addRow field buckets row).getD key #[], P r := by
  intro key r hr
  rw [getD_addRow] at hr
  by_cases hkey : row.get? field = some key
  · rw [if_pos hkey] at hr
    rcases Array.mem_push.1 hr with hr | rfl
    · exact h key r hr
    · exact hrow
  · rw [if_neg hkey] at hr
    exact h key r hr

omit [Cursor σ] [Cursor τ] in
/-- The partners of a right row are of the table. -/
theorem of_mem_probe {field : Nat} {buckets : Buckets} {row r : Row}
    (h : ∀ key, ∀ r ∈ buckets.getD key #[], P r) (hr : r ∈ probe field buckets row) : P r := by
  unfold probe at hr
  cases hkey : row.get? field with
  | none => simp [hkey] at hr
  | some key =>
    simp only [hkey] at hr
    exact h key r hr

omit [Cursor τ] in
include hl in
/-- The left side is read into the table. -/
theorem buildTable_yields (field : Nat) :
    Triple store I (Cursor.fold (fun buckets row => .ok (addRow field buckets row)) ∅)
      (fun buckets s => (∀ key, ∀ r ∈ buckets.getD key #[], P r) ∧ I s) (fun e s => F e ∧ K s) := by
  refine hl.fold (A := fun buckets : Buckets => ∀ key, ∀ r ∈ buckets.getD key #[], P r) ?_ ?_ (by simp)
  · rintro buckets row _ htable hrow ⟨⟩
    exact mem_getD_addRow htable hrow
  · rintro buckets row e _ _ ⟨⟩

omit [Cursor σ] in
include hr in
/-- The right side is looked up in the table. -/
theorem probeAll_yields (field : Nat) {buckets : Buckets}
    (htable : ∀ key, ∀ r ∈ buckets.getD key #[], P r) :
    Triple store J (Cursor.fold (fun out right =>
        .ok (out ++ (probe field buckets right).map (·.append right schema))) #[])
      (fun out t => (∀ row ∈ out, Paired P Q schema row) ∧ J t) (fun e t => F e ∧ M t) := by
  refine hr.fold (A := fun out : Array Row => ∀ row ∈ out, Paired P Q schema row) ?_ ?_ (by simp)
  · rintro out right _ hout hright ⟨⟩ row hrow
    rcases Array.mem_append.1 hrow with hrow | hrow
    · exact hout row hrow
    · obtain ⟨l, hl, rfl⟩ := Array.mem_map.1 hrow
      exact ⟨l, right, of_mem_probe htable hl, hright, rfl⟩
  · rintro out right e _ _ ⟨⟩

include hl hr hF in
theorem hash_yields :
    Triple store (Kept I J) (hash p schema)
      (fun rows s => Found P Q schema rows ∧ Kept I J s) (Failed F K M) := by
  unfold hash
  by_cases hop : p.op = .eq
  · rw [if_pos hop]
    refine Triple.bind (rewindLeft_keeps hl hr.weaken) fun _ => ?_
    refine Triple.bind (onLeft_keeps hr.weaken (buildTable_yields hl p.leftField)) fun buckets => ?_
    refine Triple.given fun htable => ?_
    by_cases hempty : buckets.isEmpty
    · rw [if_pos hempty]
      refine Triple.pure fun s hs => ⟨?_, hs⟩
      intro row hrow
      cases hrow
    · rw [if_neg hempty]
      refine Triple.bind (rewindRight_keeps hr hl.weaken) fun _ => ?_
      refine Triple.bind (onRight_keeps hl.weaken (probeAll_yields hr p.rightField htable)) fun out =>
        Triple.pure ?_
      rintro s ⟨hout, hs⟩
      exact ⟨fun row hrow => hout row (Array.mem_toList_iff.1 hrow), hs⟩
  · rw [if_neg hop]
    exact Triple.fail fun s hs => ⟨hF _ rfl rfl, hl.weaken hs.1, hr.weaken hs.2⟩

end Strategies

/-! ## The join -/

section Compute

variable {b : Join Unit Unit}

omit [Cursor σ] [Cursor τ] in
/-- Work on the sides, with what is known of its result. -/
theorem onChildren_keeps {c : Call (σ × τ) α} {R : α → Prop}
    (h : Triple store (Kept I J) c (fun a s => R a ∧ Kept I J s) (Failed F K M)) :
    Triple store (Inside b (Kept I J)) (onChildren c) (fun a j => R a ∧ Inside b (Kept I J) j)
      (fun e => Inside b (Failed F K M e)) :=
  (onChildren_triple h).imp (fun _ => id) (fun _ _ hj => ⟨hj.2.1, hj.1, hj.2.2⟩) (fun _ _ => id)

section Yields

variable (hl : Cursor.Yields store P F I K) (hr : Cursor.Yields store Q F J M)
  (hF : ∀ e : StreamError, e.isUsage = false → e.isTyping = false → F e)
include hl hr hF

theorem computeByBlocks_yields (hb : b.budget.Sound) :
    Triple store (Inside b (Kept I J)) computeByBlocks
      (fun rows j => Found P Q b.schema rows ∧ Inside b (Kept I J) j)
      (fun e => Inside b (Failed F K M e)) := by
  have hrefused : ∀ (e : MemoryError) (s : σ × τ), Kept I J s → Failed F K M (.ofMemory e) s :=
    fun e s hs => ⟨hF _ (by simp) (by simp), hl.weaken hs.1, hr.weaken hs.2⟩
  refine Triple.getBind fun j hj => Triple.atState (P := Inside b (Kept I J)) ?_ hj
  have hschema : j.schema = b.schema := congrArg Join.schema hj.1
  -- the account plays no part in what is found, so it is kept apart from the rows
  refine (withBlock_triple hb (Q := fun rows s => Found P Q b.schema rows ∧ Kept I J s)
    (fun e s _ => hrefused e s) fun leftBlock budget hleft hb' => ?_).imp (fun _ => id)
    (fun _ _ hj => ⟨hj.2.1, hj.1, hj.2.2⟩) (fun _ _ => id)
  refine withBlock_triple hb' (fun e s _ => hrefused e s) fun rightBlock budget' hright _ => ?_
  refine Triple.bind (onChildren_triple (blockNestedLoop_yields hl hr hF leftBlock rightBlock
    (by simp [Block.rows_of_make hleft]) (by simp [Block.rows_of_make hright]))) fun found => ?_
  refine Triple.bind (R := fun _ => Inside _ fun s => Found P Q j.schema found.1 ∧ Kept I J s)
    (Triple.modify fun _ hj => hj) fun _ => Triple.pure ?_
  rw [hschema]
  exact fun _ => id

/-- Finding the rows keeps the settings and the account of the join, and of its sides what reading
them keeps; and all rows are made of rows of both sides. -/
theorem compute_yields [Sorting] (hb : b.budget.Sound) (hfields : Fields b.predicate F I J) :
    Triple store (Inside b (Kept I J)) compute
      (fun rows j => Found P Q b.schema rows ∧ Inside b (Kept I J) j)
      (fun e => Inside b (Failed F K M e)) := by
  refine Triple.getBind fun j hj => Triple.atState (P := Inside b (Kept I J)) ?_ hj
  have hschema : j.schema = b.schema := congrArg Join.schema hj.1
  have hpredicate : j.predicate = b.predicate := congrArg Join.predicate hj.1
  rw [hschema, hpredicate]
  cases j.strategy with
  | nestedLoop => exact onChildren_keeps (nestedLoop_yields hl hr)
  | blockNestedLoop => exact computeByBlocks_yields hl hr hF hb
  | sortMerge => exact onChildren_keeps (sortMerge_yields hl hr hfields)
  | hash => exact onChildren_keeps (hash_yields hl hr hF)

end Yields

end Compute

end RowStream.Join
