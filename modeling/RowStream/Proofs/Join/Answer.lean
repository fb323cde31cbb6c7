import RowStream.Proofs.Join.Settings
import RowStream.Proofs.Stream.Reread

/-!
# `RowStream.Proofs.Join.Answer` — a join computes from scripts

Every strategy begins with a rewind of the left side and reads nothing of the right side before a
rewind of that. So what it finds depends on the whole scripts of the two sides and not on how far
they were read before. The answer of a strategy says what it finds, as a function of the two scripts.

## Contents
- `Join.nestedLoopAnswer`, `Join.blockNestedLoopAnswer`, `Join.sortMergeAnswer`, `Join.hashAnswer` —
  what each strategy finds, or why it fails.
- `Join.answer` — what a join finds with its settings.
- `compute_computes` — finding the rows leaves the settings, the account and the two sides alone.
-/

namespace RowStream

open Call

namespace Join

variable {σ τ : Type} [Cursor σ] [Cursor τ] {store : PageStore}

/-! ## What each strategy finds -/

/-- One pass over the right side for one left row. -/
def scanRightAnswer (p : Predicate) (schema : Schema) (right : Script) (out : Array Row)
    (left : Row) : Except StreamError (Array Row) :=
  right.foldM (fun out right =>
    .ok (if p.holds left right then out.push (left.append right schema) else out)) out

/-- What one pass over the right side for every left row finds. -/
def nestedLoopAnswer (p : Predicate) (schema : Schema) (left right : Script) :
    Except StreamError (List Row) := do
  let out ← left.foldM (scanRightAnswer p schema right) #[]
  return out.toList

/-- One pass of the right side against the left block. -/
def BlockRun.drainRightAnswer (p : Predicate) (schema : Schema) (right : Script)
    (run : BlockRun) : Except StreamError BlockRun := do
  let run ← right.foldM (pushRight p schema) { run with leftBlocks := run.leftBlocks + 1 }
  let run := if run.right.rows.isEmpty then run else run.joinBlocks p schema
  return { run with left := run.left.reset }

/-- One more left row. -/
def BlockRun.pushLeftAnswer (p : Predicate) (schema : Schema) (right : Script) (run : BlockRun)
    (row : Row) : Except StreamError BlockRun := do
  let left ← (run.left.push row).mapError .ofMemory
  let run := { run with left }
  if left.isFull then run.drainRightAnswer p schema right else return run

/-- What the join by blocks finds, and what it did. -/
def blockNestedLoopAnswer (p : Predicate) (schema : Schema) (leftBlock rightBlock : Block Row)
    (left right : Script) : Except StreamError (List Row × BlockStats) := do
  let run ← left.foldM (BlockRun.pushLeftAnswer p schema right)
    ({ left := leftBlock, right := rightBlock } : BlockRun)
  let run ← if run.left.rows.isEmpty then pure run else run.drainRightAnswer p schema right
  return (run.out.toList, run.stats)

/-- What the join of two sorted sides finds. -/
def sortMergeAnswer [Sorting] (p : Predicate) (schema leftSchema rightSchema : Schema)
    (left right : Script) : Except StreamError (List Row) := do
  let leftType ← leftSchema.fieldType p.leftField |>.mapError .data
  let rightType ← rightSchema.fieldType p.rightField |>.mapError .data
  if leftType = rightType then
    let left ← left.drain
    let right ← right.drain
    return (sortedPairs p.op (sortRows p.leftField left) (sortRows p.rightField right)).map
      fun (l, r) => l.append r schema
  else return []

/-- What looking up the right rows in a table of the left rows finds. -/
def hashAnswer (p : Predicate) (schema : Schema) (left right : Script) :
    Except StreamError (List Row) := do
  if p.op = .eq then
    let buckets ← left.foldM (fun buckets row => .ok (addRow p.leftField buckets row)) ∅
    if buckets.isEmpty then return []
    else
      let out ← right.foldM (fun out right =>
        .ok (out ++ (probe p.rightField buckets right).map (·.append right schema))) #[]
      return out.toList
  else throw (.setting (.hashNeedsEquality p.op))

/-! ## The strategies find it -/

section Strategies

variable {ls rs : Schema} {left right : Script} {showsLeft : Script → σ → Prop}
  {showsRight : Script → τ → Prop}

/-- Both sides are open. -/
def BothPlaying (showsLeft : Script → σ → Prop) (showsRight : Script → τ → Prop)
    (s : σ × τ) : Prop :=
  Cursor.Playing showsLeft s.1 ∧ Cursor.Playing showsRight s.2

theorem nestedLoop_computes (hl : Cursor.Plays store ls left showsLeft)
    (hr : Cursor.Plays store rs right showsRight) (p : Predicate) (schema : Schema) :
    Computes store (BothPlaying showsLeft showsRight) (nestedLoop p schema)
      (nestedLoopAnswer p schema left right) := by
  have hscan : ∀ (out : Array Row) (row : Row),
      Computes store (Cursor.Playing showsRight) (scanRight p schema out row)
        (scanRightAnswer p schema right out row) := fun out row => Cursor.Rereads.fold hr.rereads _ out
  unfold nestedLoop
  rw [← bind_assoc]
  exact (hl.rewindFoldWith hscan #[]).bind fun out => Computes.pure out.toList

section Blocks

variable {I : σ → Prop} {J : τ → Prop}

theorem drainRight_computes (hr : Cursor.Rereads store right J) (p : Predicate)
    (schema : Schema) (run : BlockRun) :
    Computes store J (run.drainRight p schema) (run.drainRightAnswer p schema right) := by
  unfold BlockRun.drainRight
  rw [← bind_assoc]
  exact (hr.fold _ _).bind fun run => Computes.pure _

theorem pushLeft_computes (hr : Cursor.Rereads store right J) (p : Predicate)
    (schema : Schema) (run : BlockRun) (row : Row) :
    Computes store J (run.pushLeft p schema row) (run.pushLeftAnswer p schema right row) := by
  refine (Computes.ofExcept _).bind fun left => ?_
  by_cases hfull : left.isFull
  · simp only [hfull, if_true]
    exact drainRight_computes hr p schema _
  · simp only [hfull]
    exact Computes.pure _

theorem blockNestedLoop_computes (hl : Cursor.Rereads store left I)
    (hr : Cursor.Rereads store right J) (p : Predicate) (schema : Schema)
    (leftBlock rightBlock : Block Row) :
    Computes store (fun s => I s.1 ∧ J s.2) (blockNestedLoop p schema leftBlock rightBlock)
      (blockNestedLoopAnswer p schema leftBlock rightBlock left right) := by
  unfold blockNestedLoop
  rw [← bind_assoc]
  refine (hl (pushLeft_computes hr p schema) _).bind fun run => ?_
  by_cases hempty : run.left.rows.isEmpty
  · simp only [hempty, if_true]
    exact (Computes.pure run).bind fun run => Computes.pure _
  · simp only [hempty, if_false, Bool.false_eq_true]
    exact ((drainRight_computes hr p schema run).onRight (F := I)).bind
      fun run => Computes.pure _

end Blocks

theorem sortedRun_computes [Sorting] {script : Script} {schema : Schema} {shows : Script → σ → Prop}
    (h : Cursor.Plays store schema script shows) (field : Nat) :
    Computes store (Cursor.Playing shows) (sortedRun field : Call σ (List Keyed))
      (script.drain >>= fun rows => return sortRows field rows) := by
  rintro s ⟨_, hs⟩
  obtain ⟨hres, hs'⟩ := h.rewind hs
  unfold sortedRun
  rw [bind_of_ok hres]
  obtain ⟨hrows, hend⟩ := h.tells.drain hs'
  obtain ⟨hr, hst⟩ := bind_return store Cursor.drain (sortRows field) (Cursor.rewind store s).state
  refine ⟨?_, ?_⟩
  · exact hr.trans (by rw [hrows]; cases script.drain <;> rfl)
  · exact hst ▸ hend

theorem sortMerge_computes [Sorting] (hl : Cursor.Plays store ls left showsLeft)
    (hr : Cursor.Plays store rs right showsRight) (p : Predicate) (schema : Schema) :
    Computes store (BothPlaying showsLeft showsRight) (sortMerge p schema)
      (sortMergeAnswer p schema ls rs left right) := by
  refine Computes.getBind ?_
  rintro ⟨l, r⟩ ⟨⟨_, hsl⟩, ⟨_, hsr⟩⟩
  simp only
  rw [hl.schema_eq hsl, hr.schema_eq hsr]
  refine (Computes.ofExcept _).bind fun leftType => (Computes.ofExcept _).bind fun rightType => ?_
  by_cases htypes : leftType = rightType
  · rw [if_pos htypes, if_pos htypes]
    have hleft := (sortedRun_computes hl p.leftField).onLeft (F := Cursor.Playing showsRight)
    have hright := (sortedRun_computes hr p.rightField).onRight (F := Cursor.Playing showsLeft)
    have hboth := hleft.bind fun l => hright.bind fun r =>
      Computes.pure ((sortedPairs p.op l r).map fun (l, r) => l.append r schema)
    simp only [bind_assoc, pure_bind] at hboth
    exact hboth
  · rw [if_neg htypes, if_neg htypes]
    exact Computes.pure []

theorem hash_computes (hl : Cursor.Plays store ls left showsLeft)
    (hr : Cursor.Plays store rs right showsRight) (p : Predicate) (schema : Schema) :
    Computes store (BothPlaying showsLeft showsRight) (hash p schema)
      (hashAnswer p schema left right) := by
  unfold hash hashAnswer
  by_cases hop : p.op = .eq
  · rw [if_pos hop, if_pos hop, ← bind_assoc, ← onLeft_bind]
    refine (Cursor.Rereads.fold hl.rereads _ _).onLeft.bind fun buckets => ?_
    by_cases hempty : buckets.isEmpty
    · rw [if_pos hempty, if_pos hempty]
      exact Computes.pure []
    · rw [if_neg hempty, if_neg hempty, ← bind_assoc, ← onRight_bind]
      exact ((Cursor.Rereads.fold hr.rereads _ _).onRight (F := Cursor.Playing showsLeft)).bind
        fun out : Array Row => Computes.pure out.toList
  · rw [if_neg hop, if_neg hop]
    exact Computes.ofExcept _

end Strategies

/-! ## Finding the rows -/

/-- What comes of work that needs a block, for which there has to be room. -/
def answerWithBlock {α : Type} (b : Join Unit Unit) (rowBytes : Nat) (tag : String)
    (work : Block Row → Join Unit Unit → Except StreamError α) : Except StreamError α :=
  match Block.make b.budget b.bufferBytes rowBytes tag with
  | .ok (block, budget) => work block (b.charged budget)
  | .error e => .error (.ofMemory e)

/-- What a join with these settings finds by blocks. -/
def answerByBlocks (b : Join Unit Unit) (ls rs : Schema) (left right : Script) :
    Except StreamError (List Row) :=
  b.answerWithBlock ls.byteSize "join_left_block" fun leftBlock b =>
    b.answerWithBlock rs.byteSize "join_right_block" fun rightBlock b => do
      let (rows, _) ← blockNestedLoopAnswer b.predicate b.schema leftBlock rightBlock left right
      return rows

/-- What a join with these settings finds, if `ls` and `rs` are the columns of its sides. -/
def answer [Sorting] (b : Join Unit Unit) (ls rs : Schema) (left right : Script) :
    Except StreamError (List Row) :=
  match b.strategy with
  | .nestedLoop => nestedLoopAnswer b.predicate b.schema left right
  | .blockNestedLoop => answerByBlocks b ls rs left right
  | .sortMerge => sortMergeAnswer b.predicate b.schema ls rs left right
  | .hash => hashAnswer b.predicate b.schema left right

section Compute

variable {ls rs : Schema} {left right : Script} {showsLeft : Script → σ → Prop}
  {showsRight : Script → τ → Prop} {b : Join Unit Unit}

/-- A join with the settings `b` and with both sides open. -/
def Ready (b : Join Unit Unit) (showsLeft : Script → σ → Prop) (showsRight : Script → τ → Prop) :
    Join σ τ → Prop :=
  Inside b (BothPlaying showsLeft showsRight)

omit [Cursor σ] [Cursor τ] in
theorem onChildren_computes {α : Type} {c : Call (σ × τ) α} {r : Except StreamError α}
    (h : Computes store (BothPlaying showsLeft showsRight) c r) :
    Computes store (Ready b showsLeft showsRight) (onChildren c) r := by
  refine Computes.iff_triple.2 ((onChildren_triple (b := b) (Computes.iff_triple.1 h)).imp ?_ ?_ ?_)
  · exact fun _ => id
  · rintro a j ⟨hbare, hr, hsides⟩
    exact ⟨hr, hbare, hsides⟩
  · rintro e j ⟨hbare, hr, hsides⟩
    exact ⟨hr, hbare, hsides⟩

omit [Cursor σ] [Cursor τ] in
theorem withBlock_computes (hb : b.budget.Sound) {rowBytes : Nat} {tag : String} {α : Type}
    {r : Block Row → Join Unit Unit → Except StreamError α} {work : Block Row → Call (Join σ τ) α}
    (hwork : ∀ block budget, (b.charged budget).budget.Sound →
      Computes store (Ready (b.charged budget) showsLeft showsRight)
        (work block) (r block (b.charged budget))) :
    Computes store (Ready b showsLeft showsRight)
      (makeBlock rowBytes tag >>= fun block => Call.ensuring (releaseBlock block) (work block))
      (b.answerWithBlock rowBytes tag r) := by
  refine Computes.iff_triple.2 ((withBlock_triple (P := BothPlaying showsLeft showsRight)
    (Q := fun a s => b.answerWithBlock rowBytes tag r = .ok a ∧ BothPlaying showsLeft showsRight s)
    (E := fun e s => b.answerWithBlock rowBytes tag r = .error e ∧
      BothPlaying showsLeft showsRight s) hb ?_ ?_).imp (fun _ => id) ?_ ?_)
  · intro e s h hs
    refine ⟨?_, hs⟩
    unfold answerWithBlock
    rw [h]
  · intro block budget h hsound
    have hanswer : b.answerWithBlock rowBytes tag r = r block (b.charged budget) := by
      unfold answerWithBlock
      rw [h]
    rw [hanswer]
    refine (Computes.iff_triple.1 (hwork block budget hsound)).imp (fun _ => id) ?_ ?_
    · rintro a j ⟨hr, hbare, hsides⟩
      exact ⟨hbare, hr, hsides⟩
    · rintro e j ⟨hr, hbare, hsides⟩
      exact ⟨hbare, hr, hsides⟩
  · rintro a j ⟨hbare, hr, hsides⟩
    exact ⟨hr, hbare, hsides⟩
  · rintro e j ⟨hbare, hr, hsides⟩
    exact ⟨hr, hbare, hsides⟩

theorem computeByBlocks_computes (hl : Cursor.Plays store ls left showsLeft)
    (hr : Cursor.Plays store rs right showsRight) (hb : b.budget.Sound) :
    Computes store (Ready b showsLeft showsRight) computeByBlocks
      (answerByBlocks b ls rs left right) := by
  refine Computes.getBind ?_
  rintro j ⟨rfl, ⟨_, hsl⟩, ⟨_, hsr⟩⟩
  rw [hl.schema_eq hsl, hr.schema_eq hsr]
  refine withBlock_computes hb fun leftBlock budget hsound => ?_
  refine withBlock_computes hsound fun rightBlock budget' _ => ?_
  refine (onChildren_computes (blockNestedLoop_computes hl.rereads hr.rereads _ _ leftBlock rightBlock)).bind
    fun found => ?_
  -- noting what was done changes no setting
  exact fun _ hs => ⟨rfl, hs⟩

/-- Finding the rows gives the answer to the whole scripts, wherever the two sides stand, and leaves
the settings and the account as they were. -/
theorem compute_computes [Sorting] (hl : Cursor.Plays store ls left showsLeft)
    (hr : Cursor.Plays store rs right showsRight) (hb : b.budget.Sound) :
    Computes store (Ready b showsLeft showsRight) compute (answer b ls rs left right) := by
  refine Computes.getBind ?_
  rintro j ⟨rfl, hsides⟩
  unfold answer
  rw [show j.bare.strategy = j.strategy from rfl]
  cases j.strategy with
  | nestedLoop => exact onChildren_computes (nestedLoop_computes hl hr _ _)
  | blockNestedLoop => exact computeByBlocks_computes hl hr hb
  | sortMerge => exact onChildren_computes (sortMerge_computes hl hr _ _)
  | hash => exact onChildren_computes (hash_computes hl hr _ _)

end Compute

end Join

end RowStream
