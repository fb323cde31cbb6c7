import RowStream.Aggregate.Basic
import RowStream.Proofs.Stream.Leaves

/-!
# `RowStream.Proofs.Aggregate.Profile` — the profile of an aggregate

An aggregate is known from its settings and from the profile of its child: it folds the script of
the child into groups and gives one row for each. Sent back, it gives the rows of the same groups.

## Contents
- `Aggregate.bare`, `Aggregate.WellSet` — the settings, and those that fit the child.
- `Aggregate.profile` — the profile over that of the child.
- `opening_of_child`, `opening_of_child_error` — what comes of the child.
- `readChild_computes`, `fill_triple`, `start_triple` — folding the child at a start.
- `plays_of_groups`, `plays` — handing out the groups, and doing so again.
- `profile_holds` — an aggregate is as its profile says, if its child is as that of the child.
- `obeys`, `stays` — what every call keeps of an aggregate and of its child, and what its groups are.
-/

namespace RowStream.Aggregate

open Call

variable {σ : Type} {store : PageStore} {b : Aggregate Unit} {C : Profile σ} [Grouping.Listing]

/-- The settings of an aggregate: all of it but its child and what it knows while it is open. -/
def bare (a : Aggregate σ) : Aggregate Unit := { a with child := (), run := none }

/-- The settings of an aggregate are those for the columns of its child. -/
def WellSet (b : Aggregate Unit) (child : Schema) : Prop :=
  plan child b.field b.groupField b.fn = .ok (b.blank, b.schema)

/-- What comes of folding the script of a child. -/
def answer (b : Aggregate Unit) (child : Script) : Except StreamError (Grouping × List Row) := do
  let groups ← child.foldM Grouping.merge b.blank
  let rows ← groups.rows b.schema
  return (groups, rows)

/-- An aggregate with the settings `b`. -/
def profile (b : Aggregate Unit) (C : Profile σ) : Profile (Aggregate σ) where
  schema := b.schema
  opening := do
    let child ← C.opening
    let (_, rows) ← b.answer child
    return ⟨rows, none⟩
  own a := a.bare = b ∧ C.own a.child
  resting a := a.run = none ∧ a.bare = b ∧ C.own a.child
  closed a := a.run = none ∧ a.bare = b ∧ C.closed a.child
  shows script a := script.failure = none ∧ a.bare = b ∧ Cursor.Playing C.shows a.child ∧
    ∃ child groups rows, C.opening = .ok child ∧ b.answer child = .ok (groups, rows) ∧
      a.run = some ⟨groups, script.rows⟩

/-- An aggregate whose child does not open fails as that does. -/
theorem opening_of_child_error {e : StreamError} (h : C.opening = .error e) :
    (profile b C).opening = .error e := by
  unfold profile
  rw [h]
  rfl

/-- An aggregate whose child opens gives the rows of the answer. -/
theorem opening_of_child {child : Script} (h : C.opening = .ok child) :
    (profile b C).opening = (b.answer child).map fun found => ⟨found.2, none⟩ := by
  unfold profile
  rw [h]
  cases hanswer : b.answer child <;>
    simp [hanswer, bind, Except.bind, Except.map, pure, Except.pure]

/-- Where an aggregate opens, its child does. -/
theorem opening_eq_ok_iff {full : Script} :
    (profile b C).opening = .ok full ↔
      ∃ child groups rows, C.opening = .ok child ∧ b.answer child = .ok (groups, rows) ∧
        full = ⟨rows, none⟩ := by
  unfold profile
  simp only [bind, Except.bind, pure, Except.pure]
  constructor
  · intro h
    cases hC : C.opening with
    | error e => simp [hC] at h
    | ok child =>
      cases hans : b.answer child with
      | error e => simp [hC, hans] at h
      | ok found =>
        simp only [hC, hans, Except.ok.injEq] at h
        exact ⟨child, found.1, found.2, rfl, hans, h.symm⟩
  · rintro ⟨child, groups, rows, hC, hans, rfl⟩
    simp [hC, hans]

/-- Groups that were found have their rows. -/
theorem rows_of_answer {child : Script} {groups : Grouping} {rows : List Row}
    (h : b.answer child = .ok (groups, rows)) : groups.rows b.schema = .ok rows := by
  unfold answer at h
  simp only [bind, Except.bind, pure, Except.pure] at h
  cases hfold : child.foldM Grouping.merge b.blank with
  | error e => simp [hfold] at h
  | ok groups' =>
    cases hrows : groups'.rows b.schema with
    | error e => simp [hfold, hrows] at h
    | ok rows' =>
      simp only [hfold, hrows, Except.ok.injEq, Prod.mk.injEq] at h
      obtain ⟨rfl, rfl⟩ := h
      exact hrows

/-- Handing out groups from the first one on. -/
theorem replay_of_ok (store : PageStore) {groups : Grouping} {rows : List Row} {a : Aggregate σ}
    (ha : a.bare = b) (h : groups.rows b.schema = .ok rows) :
    replay groups store a =
      { result := .ok (), state := { a with run := some ⟨groups, rows⟩ } } := by
  subst ha
  unfold replay
  simp only [bind, Call.bind, Call.get, Call.ofExcept, Call.modify,
    show groups.rows a.schema = .ok rows from h]
  rfl

/-- Groups without rows are not handed out. -/
theorem replay_of_error (store : PageStore) {groups : Grouping} {e : StreamError} {a : Aggregate σ}
    (ha : a.bare = b) (h : groups.rows b.schema = .error e) :
    (replay groups store a).result = .error e ∧ (replay groups store a).state = a := by
  subst ha
  unfold replay
  simp only [bind, Call.bind, Call.get, Call.ofExcept, show groups.rows a.schema = .error e from h]
  exact ⟨trivial, trivial⟩

variable [Cursor σ]

/-- Closing an aggregate closes its child. -/
theorem closed_close (hC : C.Holds store) {a : Aggregate σ} (ha : (profile b C).own a) :
    (profile b C).closed a.close := ⟨rfl, ha.1, hC.close ha.2⟩

omit [Grouping.Listing] in
/-- Reading the child is folding its script. -/
theorem readChild_computes (hC : C.Holds store) {child : Script} (hchild : C.opening = .ok child)
    {a : Aggregate σ} (hbare : a.bare = b) (hshows : C.shows child a.child) :
    (readChild store a).result = child.foldM Grouping.merge b.blank ∧
      (readChild store a).state.bare = b ∧
      Cursor.Playing C.shows (readChild store a).state.child := by
  obtain ⟨hres, hst⟩ := (hC.plays hchild).tells.fold Grouping.merge b.blank hshows
  subst hbare
  exact ⟨hres, rfl, hst⟩

/-- With the child open, it is read and its groups are handed out, unless there is no answer. -/
theorem fill_triple (hC : C.Holds store) {child : Script} (hchild : C.opening = .ok child) :
    Triple store (fun a => a.bare = b ∧ C.shows child a.child) (readChild >>= replay)
      (fun _ a => ∃ groups rows, b.answer child = .ok (groups, rows) ∧
        a.run = some ⟨groups, rows⟩ ∧ a.bare = b ∧ Cursor.Playing C.shows a.child)
      (fun e a => b.answer child = .error e ∧ (profile b C).own a) := by
  refine Triple.each ?_
  rintro a ⟨hbare, hshows⟩
  obtain ⟨hres, hbare', hplaying⟩ := readChild_computes hC hchild hbare hshows
  -- whatever comes of it, the child is open
  have hown : (profile b C).own (readChild store a).state := by
    obtain ⟨_, hs⟩ := hplaying
    exact ⟨hbare', hC.own_of_shows hs⟩
  refine Triple.bindAt (fun groups hgroups => ?_) (fun e he => ?_)
  · rintro _ rfl
    rw [hres] at hgroups
    -- the groups are there, but do they have rows?
    cases hrows : groups.rows b.schema with
    | ok rows =>
      rw [replay_of_ok store hbare' hrows]
      refine ⟨groups, rows, ?_, rfl, hbare', hplaying⟩
      simp [answer, hgroups, hrows, bind, Except.bind, pure, Except.pure]
    | error e =>
      have hreplay := replay_of_error store hbare' hrows
      rw [hreplay.1, hreplay.2]
      refine ⟨?_, hown⟩
      simp [answer, hgroups, hrows, bind, Except.bind]
  · rw [hres] at he
    refine ⟨?_, hown⟩
    simp [answer, he, bind, Except.bind]

/-- A start opens the child, reads it and hands out the groups. -/
theorem start_triple (hC : C.Holds store) :
    Triple store (profile b C).closed start
      (fun _ a => ∃ full, (profile b C).opening = .ok full ∧ (profile b C).shows full a)
      (fun e a => (profile b C).opening = .error e ∧ (profile b C).closed a) := by
  refine Triple.getBind ?_
  rintro a ⟨hrun, hbare, hc⟩
  rw [if_neg (by simp [hrun])]
  -- the child opens, or nothing has changed
  refine Triple.bind (R := fun _ a => ∃ child, C.opening = .ok child ∧ a.bare = b ∧
    C.shows child a.child) (Triple.zoom ?_) fun _ => Triple.onError (Triple.each ?_)
  · rintro _ rfl
    refine hC.start.imp (fun _ hs => hs ▸ hc) ?_ ?_
    · rintro _ s ⟨child, hchild, hs⟩
      exact ⟨child, hchild, hbare, hs⟩
    · rintro e s ⟨he, hs⟩
      exact ⟨opening_of_child_error he, hrun, hbare, hs⟩
  rintro a ⟨child, hchild, hbare, hshows⟩
  -- the child is read, or all is closed again
  refine (fill_triple (b := b) hC hchild).imp ?_ ?_ ?_
  · rintro _ rfl
    exact ⟨hbare, hshows⟩
  · rintro _ a ⟨groups, rows, hanswer, hrun, hbare, hplaying⟩
    refine ⟨⟨rows, none⟩, ?_, rfl, hbare, hplaying, child, groups, rows, hchild, hanswer, hrun⟩
    rw [opening_of_child hchild, hanswer]
    rfl
  · rintro e a ⟨hanswer, hown⟩
    refine ⟨?_, closed_close hC hown⟩
    rw [opening_of_child hchild, hanswer]
    rfl

/-- A start that does not find all closed fails, and the aggregate stays closed if it was. -/
theorem start_refused (hC : C.Holds store) {a : Aggregate σ} (ha : (profile b C).own a)
    (hclosed : ¬ (profile b C).closed a) :
    Triple store (· = a) start (fun _ _ => False)
      (fun _ a' => (profile b C).own a' ∧ ((profile b C).resting a → (profile b C).resting a')) := by
  obtain ⟨hbare, hc⟩ := ha
  refine Triple.getBindAt ?_
  by_cases hopen : a.run.isSome
  · rw [if_pos hopen]
    refine Triple.fail ?_
    rintro _ rfl
    exact ⟨⟨hbare, hc⟩, id⟩
  have hrun : a.run = none := by simpa using hopen
  rw [if_neg hopen]
  have hcc : ¬ C.closed a.child := fun hcc => hclosed ⟨hrun, hbare, hcc⟩
  refine Triple.bind (R := fun _ _ => False) (Triple.zoom ?_) fun _ _ => False.elim
  rintro _ rfl
  refine (hC.start_refused hc hcc).imp (fun _ => id) (fun _ _ => id) ?_
  rintro e s ⟨hs, -⟩
  exact ⟨⟨hbare, hs⟩, fun _ => ⟨hrun, hbare, hs⟩⟩

/-! ## The open aggregate -/

omit [Cursor σ] [Grouping.Listing] in
/-- Taking a row takes it from the rows at hand. -/
theorem next_of_run (store : PageStore) {a : Aggregate σ} {groups : Grouping} {rows : List Row}
    (h : a.run = some ⟨groups, rows⟩) :
    next store a =
      { result := Script.next ⟨rows, none⟩, state := { a with run := some ⟨groups, rows.tail⟩ } } := by
  unfold next
  simp only [bind, Call.bind, Call.get, h]
  cases rows with
  | nil =>
    show ({ result := _, state := a } : Outcome (Aggregate σ) Row) = _
    rw [show a = { a with run := some ⟨groups, []⟩ } by rw [← h]]
    rfl
  | cons row rows => rfl

omit [Cursor σ] in
/-- Going back hands out the groups that were found at the start. -/
theorem rewind_of_run (store : PageStore) {a : Aggregate σ} {run : Run} (h : a.run = some run) :
    rewind store a = replay run.groups store a := by
  unfold rewind
  rw [bind_of_ok (c := Call.get) (a := a) rfl]
  simp [Call.get, h]

/-- An aggregate with the settings `b` that has found the groups and gives the script, over a child for
which `P` holds. -/
def Giving (b : Aggregate Unit) (groups : Grouping) (P : σ → Prop) (script : Script)
    (a : Aggregate σ) : Prop :=
  script.failure = none ∧ a.bare = b ∧ P a.child ∧ a.run = some ⟨groups, script.rows⟩

/-- An aggregate that has found its groups gives their rows, and gives them again when it is sent back;
the child is not needed. -/
theorem plays_of_groups {groups : Grouping} {all : List Row} (hall : groups.rows b.schema = .ok all)
    (P : σ → Prop) : Cursor.Plays store b.schema ⟨all, none⟩ (Giving b groups P) where
  schema_eq := by
    rintro script a ⟨-, rfl, -⟩
    rfl
  hasNext := by
    rintro ⟨rows, _⟩ a ⟨rfl, hbare, hchild, hrun⟩
    have hres : (hasNext store a).result = Script.hasNext ⟨rows, none⟩ := by
      rw [← Replay.hasNext_some .aggregate rows]
      show Replay.hasNext .aggregate (a.run.map (·.pending)) = _
      rw [hrun]
      rfl
    exact ⟨hres, rfl, hbare, hchild, hrun⟩
  next := by
    rintro ⟨rows, _⟩ a ⟨rfl, hbare, hchild, hrun⟩
    have hnext := next_of_run store hrun
    refine ⟨congrArg Outcome.result hnext, ?_⟩
    rw [show (Cursor.next store a).state = _ from congrArg Outcome.state hnext]
    exact ⟨rfl, hbare, hchild, rfl⟩
  rewind := by
    rintro script a ⟨-, hbare, hchild, hrun⟩
    have hrewind := (rewind_of_run store hrun).trans (replay_of_ok store hbare hall)
    refine ⟨congrArg Outcome.result hrewind, ?_⟩
    rw [show (Cursor.rewind store a).state = _ from congrArg Outcome.state hrewind]
    exact ⟨rfl, hbare, hchild, rfl⟩

/-- An open aggregate gives the rows of the groups that it found at its start. -/
theorem plays {full : Script} (hfull : (profile b C).opening = .ok full) :
    Cursor.Plays store b.schema full (profile b C).shows := by
  obtain ⟨child, groups, rows, hchild, hanswer, rfl⟩ := opening_eq_ok_iff.1 hfull
  -- only one script and one answer lead to what is shown
  have hshows : (profile b C).shows = Giving b groups (Cursor.Playing C.shows) := by
    funext script a
    apply propext
    constructor
    · rintro ⟨hend, hbare, hplaying, child', groups', rows', hchild', hanswer', hrun⟩
      cases hchild.symm.trans hchild'
      cases hanswer.symm.trans hanswer'
      exact ⟨hend, hbare, hplaying, hrun⟩
    · rintro ⟨hend, hbare, hplaying, hrun⟩
      exact ⟨hend, hbare, hplaying, child, groups, rows, hchild, hanswer, hrun⟩
  rw [hshows]
  exact plays_of_groups (rows_of_answer hanswer) _

/-! ## The profile -/

/-- An aggregate refuses calls in the wrong state. -/
theorem guarded : Cursor.Guarded store fun a : Aggregate σ => a.run.isSome where
  start := by
    intro a ha
    have hstart : start store a =
        { result := .error (.usage (.alreadyOpen .aggregate)), state := a } := by
      simp [start, bind, Call.bind, Call.get, Call.fail, Call.ofExcept, ha]
    exact ⟨.aggregate, congrArg Outcome.result hstart, congrArg Outcome.state hstart⟩
  hasNext := by
    intro a ha
    have hrun : a.run = none := by simpa using ha
    have hpending : a.pending = none := congrArg (Option.map Run.pending) hrun
    exact ⟨.aggregate, congrArg (Replay.hasNext .aggregate) hpending, rfl⟩
  next := by
    intro a ha
    have hrun : a.run = none := by simpa using ha
    have hnext : next store a = { result := .error (.usage (.notOpen .aggregate)), state := a } := by
      simp [next, bind, Call.bind, Call.get, Call.fail, Call.ofExcept, hrun]
    exact ⟨.aggregate, congrArg Outcome.result hnext, congrArg Outcome.state hnext⟩
  rewind := by
    intro a ha
    have hrun : a.run = none := by simpa using ha
    have hrewind : rewind store a =
        { result := .error (.usage (.notOpen .aggregate)), state := a } := by
      simp [rewind, bind, Call.bind, Call.get, Call.fail, Call.ofExcept, hrun]
    exact ⟨.aggregate, congrArg Outcome.result hrewind, congrArg Outcome.state hrewind⟩

/-- An aggregate is as its profile says, if its child is as that of the child. -/
theorem profile_holds (hC : C.Holds store) : (profile b C).Holds store where
  own_of_resting := And.right
  resting_of_closed := by
    rintro a ⟨hrun, hbare, hc⟩
    exact ⟨hrun, hbare, hC.own_of_resting (hC.resting_of_closed hc)⟩
  own_of_shows := by
    rintro script a ⟨-, hbare, ⟨_, hs⟩, -⟩
    exact ⟨hbare, hC.own_of_shows hs⟩
  schema_eq := by
    rintro a ⟨rfl, -⟩
    rfl
  close := closed_close hC
  start := start_triple hC
  start_refused := start_refused hC
  start_open := by
    rintro script a ⟨-, -, -, child, groups, rows, -, -, hrun⟩
    exact guarded.start (by simp [hrun])
  hasNext_resting := by
    rintro a ⟨hrun, -⟩
    exact guarded.hasNext (by simp [hrun])
  next_resting := by
    rintro a ⟨hrun, -⟩
    exact guarded.next (by simp [hrun])
  rewind_resting := by
    rintro a ⟨hrun, -⟩
    exact guarded.rewind (by simp [hrun])
  plays := plays

/-! ## What no call changes -/

/-- An aggregate with given settings, and something of its child. -/
def Over (b : Aggregate Unit) (I : σ → Prop) (a : Aggregate σ) : Prop := a.bare = b ∧ I a.child

section Obeys

variable {G : Grouping → Prop} {P W : Row → Prop} {F : StreamError → Prop} {I : σ → Prop}

/-- An aggregate with the settings `b` over a child for which `I` holds; while it is open, `G` holds of
its groups and `W` of the rows that are still to come. -/
def Carrying (G : Grouping → Prop) (W : Row → Prop) (b : Aggregate Unit) (I : σ → Prop)
    (a : Aggregate σ) : Prop :=
  Over b I a ∧ ∀ run ∈ a.run, G run.groups ∧ ∀ row ∈ run.pending, W row

omit [Grouping.Listing] in
/-- A closed aggregate knows of no groups. -/
theorem carrying_close (h : Cursor.Obeys store P F I) {a : Aggregate σ} (ha : Over b I a) :
    Carrying G W b I a.close := ⟨⟨ha.1, h.close ha.2⟩, nofun⟩

section Rows

variable (hrows : ∀ g rows, G g → g.rows b.schema = .ok rows → ∀ row ∈ rows, W row)
  (hrowless : ∀ g e, G g → g.rows b.schema = .error e → F e)
include hrows hrowless

omit [Cursor σ] in
/-- Groups are handed out, or all is as it was. -/
theorem replay_carries {g : Grouping} (hg : G g) {a : Aggregate σ} (ha : Over b I a) :
    Triple store (· = a) (replay g) (fun _ => Carrying G W b I) (fun e t => F e ∧ t = a) := by
  refine Triple.getBindAt ?_
  have hschema : a.schema = b.schema := congrArg Aggregate.schema ha.1
  rw [hschema]
  refine Triple.bind (R := fun pending t => g.rows b.schema = .ok pending ∧ t = a)
    (Triple.ofExcept ?_ ?_) fun pending => Triple.modify ?_
  · intro t pending ht hpending
    exact ⟨hpending, ht⟩
  · intro t e ht he
    exact ⟨hrowless g e hg he, ht⟩
  · rintro _ ⟨hpending, rfl⟩
    refine ⟨ha, ?_⟩
    rintro _ ⟨⟩
    exact ⟨hg, hrows g pending hg hpending⟩

variable (h : Cursor.Obeys store P F I) (hF : ∀ e : StreamError, e.isTyping = false → F e)
  (hblank : G b.blank)
  (hmerge : ∀ g row g', G g → P row → g.merge row = .ok g' → G g')
  (hrefused : ∀ g row e, G g → P row → g.merge row = .error e → F e)
include h hF hblank hmerge hrefused

theorem start_carries : Triple store (Carrying G W b I) start (fun _ => Carrying G W b I)
    (fun e a => F e ∧ Carrying G W b I a) := by
  refine Triple.getBind fun a ha => ?_
  by_cases hopen : a.run.isSome
  · rw [if_pos hopen]
    exact Triple.fail fun _ ht => ⟨hF _ rfl, ht ▸ ha⟩
  rw [if_neg hopen]
  refine Triple.bind (R := fun _ => Over b I) (Triple.zoom ?_) fun _ => Triple.onError ?_
  · rintro _ rfl
    exact h.start.imp (fun _ hs => hs ▸ ha.1.2) (fun _ _ hs => ⟨ha.1.1, hs⟩)
      (fun _ _ hs => ⟨hs.1, ⟨ha.1.1, hs.2⟩, ha.2⟩)
  -- the child is folded into groups, or all is closed
  refine Triple.bind (R := fun g a => G g ∧ Over b I a) ?_ fun g => Triple.given fun hg =>
    Triple.each fun a ha => (replay_carries hrows hrowless hg ha).imp (fun _ => id) (fun _ _ => id)
      (fun _ _ hs => ⟨hs.1, hs.2 ▸ carrying_close h ha⟩)
  refine Triple.getBind fun a ha => ?_
  have hbegin : a.blank = b.blank := congrArg Aggregate.blank ha.1
  rw [hbegin]
  refine Triple.zoom ?_
  rintro _ rfl
  have hread := h.reads.fold (A := G) (fun g row g' hg hrow => hmerge g row g' hg hrow)
    (fun g row e hg hrow => hrefused g row e hg hrow) hblank
  exact hread.imp (fun _ hs => hs ▸ ha.2) (fun _ _ hs => ⟨hs.1, ha.1, hs.2⟩)
    (fun _ _ hs => ⟨hs.1, carrying_close h ⟨ha.1, hs.2⟩⟩)

omit hrows hrowless hblank hmerge hrefused [Cursor σ] h [Grouping.Listing] in
/-- The next row is one of those that are still to come. -/
theorem next_carries : Triple store (Carrying G W b I : Aggregate σ → Prop) next
    (fun row a => W row ∧ Carrying G W b I a) (fun e a => F e ∧ Carrying G W b I a) := by
  refine Triple.getBind fun a ha => ?_
  match hrun : a.run with
  | none => exact Triple.fail fun _ ht => ⟨hF _ rfl, ht ▸ ha⟩
  | some ⟨_, []⟩ => exact Triple.fail fun _ ht => ⟨hF _ rfl, ht ▸ ha⟩
  | some ⟨groups, row :: rows⟩ =>
    obtain ⟨hg, hpending⟩ := ha.2 _ hrun
    refine Triple.bind (R := fun _ => Carrying G W b I) (Triple.modify fun t ht => ?_) fun _ =>
      Triple.pure fun t ht => ⟨hpending row List.mem_cons_self, ht⟩
    refine ⟨ht ▸ ha.1, ?_⟩
    rintro _ ⟨⟩
    exact ⟨hg, fun r hr => hpending r (List.mem_cons_of_mem _ hr)⟩

omit hblank hmerge hrefused [Cursor σ] h in
/-- The groups are handed out again, as they were found. -/
theorem rewind_carries : Triple store (Carrying G W b I : Aggregate σ → Prop) rewind
    (fun _ => Carrying G W b I) (fun e a => F e ∧ Carrying G W b I a) := by
  refine Triple.getBind fun a ha => ?_
  match hrun : a.run with
  | none => exact Triple.fail fun _ ht => ⟨hF _ rfl, ht ▸ ha⟩
  | some run =>
    exact (replay_carries hrows hrowless (ha.2 _ hrun).1 ha.1).imp (fun _ => id) (fun _ _ => id)
      (fun _ _ hs => ⟨hs.1, hs.2 ▸ ha⟩)

/-- No call changes the settings of an aggregate, nor of its child what no call on it changes. What holds
of the groups at first and is kept by every row of the child holds of the groups that it finds. -/
theorem obeys : Cursor.Obeys store W F (Carrying G W b I : Aggregate σ → Prop) where
  start := start_carries hrows hrowless h hF hblank hmerge hrefused
  reads := {
    weaken := id
    hasNext := Replay.hasNext_triple hF .aggregate pending
    next := next_carries hF
    rewind := rewind_carries hrows hrowless hF }
  close := fun ha => carrying_close h ha.1

end Rows

/-- No call changes the settings of an aggregate, nor of its child what no call on it changes. -/
theorem stays (h : Cursor.Stays store I) : Cursor.Stays store (Over b I : Aggregate σ → Prop) := by
  have hobeys := obeys (G := fun _ => True) (W := fun _ => True) (b := b)
    (fun _ _ _ _ _ _ => trivial) (fun _ _ _ _ => trivial) h.obeys (fun _ _ => trivial) trivial
    (fun _ _ _ _ _ _ => trivial) (fun _ _ _ _ _ _ => trivial)
  refine (hobeys.congr fun a => ⟨fun ha => ⟨ha, ?_⟩, And.left⟩).stays
  exact fun _ _ => ⟨trivial, fun _ _ => trivial⟩

end Obeys

end RowStream.Aggregate
