import RowStream.Proofs.Join.Answer
import RowStream.Proofs.Join.Keeps
import RowStream.Proofs.Stream.Leaves

/-!
# `RowStream.Proofs.Join.Profile` — the profile of a join

A join is known from its settings and from the profiles of its sides: it starts both and answers to
their scripts. Whatever fails on the way, all is closed afterwards.

## Contents
- `Join.profile` — the profile of a join over two profiles.
- `opening_of_sides`, `opening_of_left_error`, `opening_of_right_error` — what comes of the sides.
- `materialize_of_sides`, `start_triple`, `rewind_of_sides` — finding the rows, at a start and again.
- `plays_of_sides` — handing out the rows that were found.
- `profile_holds` — a join is as its profile says, if its sides are as theirs.
- `obeys`, `stays` — what every call keeps of a join and of its sides, and what its rows are made of.
-/

namespace RowStream.Join

open Call

variable {σ τ : Type} {store : PageStore} {b : Join Unit Unit} {L : Profile σ} {R : Profile τ}
  [Sorting]

/-- A join with the settings `b`. -/
def profile (b : Join Unit Unit) (L : Profile σ) (R : Profile τ) : Profile (Join σ τ) where
  schema := b.schema
  opening := do
    let left ← L.opening
    let right ← R.opening
    let rows ← b.answer L.schema R.schema left right
    return ⟨rows, none⟩
  own j := j.bare = b ∧ L.own j.left ∧ R.own j.right
  resting j := j.pending = none ∧ j.bare = b ∧ L.own j.left ∧ R.own j.right
  closed j := j.pending = none ∧ j.bare = b ∧ L.closed j.left ∧ R.closed j.right
  shows script j :=
    script.failure = none ∧ j.pending = some script.rows ∧ Ready b L.shows R.shows j

/-- A join whose left side does not open fails as that does. -/
theorem opening_of_left_error {e : StreamError} (h : L.opening = .error e) :
    (profile b L R).opening = .error e := by
  unfold profile
  rw [h]
  rfl

/-- A join whose right side does not open fails as that does. -/
theorem opening_of_right_error {left : Script} {e : StreamError} (hleft : L.opening = .ok left)
    (h : R.opening = .error e) : (profile b L R).opening = .error e := by
  unfold profile
  rw [hleft, h]
  rfl

/-- A join whose sides open gives the rows of the answer. -/
theorem opening_of_sides {left right : Script} (hleft : L.opening = .ok left)
    (hright : R.opening = .ok right) : (profile b L R).opening =
      (b.answer L.schema R.schema left right).map fun rows => ⟨rows, none⟩ := by
  unfold profile
  rw [hleft, hright]
  rfl

/-- Where a join opens, both sides do. -/
theorem opening_eq_ok_iff {full : Script} :
    (profile b L R).opening = .ok full ↔
      ∃ left right rows, L.opening = .ok left ∧ R.opening = .ok right ∧
        b.answer L.schema R.schema left right = .ok rows ∧ full = ⟨rows, none⟩ := by
  unfold profile
  simp only [bind, Except.bind, pure, Except.pure]
  constructor
  · intro h
    cases hL : L.opening with
    | error e => simp [hL] at h
    | ok left =>
      cases hR : R.opening with
      | error e => simp [hL, hR] at h
      | ok right =>
        cases hans : b.answer L.schema R.schema left right with
        | error e => simp [hL, hR, hans] at h
        | ok rows =>
          simp only [hL, hR, hans, Except.ok.injEq] at h
          exact ⟨left, right, rows, rfl, rfl, hans, h.symm⟩
  · rintro ⟨left, right, rows, hL, hR, hans, rfl⟩
    simp [hL, hR, hans]

variable [Cursor σ] [Cursor τ]

/-- An open join is the join. -/
theorem own_of_ready (hL : L.Holds store) (hR : R.Holds store) {j : Join σ τ}
    (hj : Ready b L.shows R.shows j) : (profile b L R).own j := by
  obtain ⟨hbare, ⟨_, hl⟩, ⟨_, hr⟩⟩ := hj
  exact ⟨hbare, hL.own_of_shows hl, hR.own_of_shows hr⟩

/-- Closing a join closes both sides. -/
theorem closed_close (hL : L.Holds store) (hR : R.Holds store) {j : Join σ τ}
    (hj : (profile b L R).own j) : (profile b L R).closed j.close :=
  ⟨rfl, hj.1, hL.close hj.2.1, hR.close hj.2.2⟩

section Finding

variable {ls rs : Schema} {left right : Script} {showsLeft : Script → σ → Prop}
  {showsRight : Script → τ → Prop}

/-- A join with the settings `b` that gives the script, with both sides open. -/
def Giving (b : Join Unit Unit) (showsLeft : Script → σ → Prop) (showsRight : Script → τ → Prop)
    (script : Script) (j : Join σ τ) : Prop :=
  script.failure = none ∧ j.pending = some script.rows ∧ Ready b showsLeft showsRight j

/-- With both sides open, the rows of the answer are kept, or the join is closed. -/
theorem materialize_of_sides (hl : Cursor.Plays store ls left showsLeft)
    (hr : Cursor.Plays store rs right showsRight) (hb : b.budget.Sound) :
    Triple store (Ready b showsLeft showsRight) materialize
      (fun _ j => ∃ rows, b.answer ls rs left right = .ok rows ∧
        Giving b showsLeft showsRight ⟨rows, none⟩ j)
      (fun e j => b.answer ls rs left right = .error e ∧
        ∃ j', Ready b showsLeft showsRight j' ∧ j = j'.close) := by
  have hcompute := Computes.iff_triple.1 (compute_computes hl hr hb)
  unfold materialize
  refine Triple.bind (Triple.onError (hcompute.imp (fun _ => id) (fun _ _ => id) ?_)) fun rows => ?_
  · rintro e j ⟨hanswer, hj⟩
    exact ⟨hanswer, j, hj, rfl⟩
  · apply Triple.modify
    rintro j ⟨hanswer, hj⟩
    exact ⟨rows, hanswer, rfl, rfl, hj⟩

/-- With both sides open, the rows are found and kept, or all is closed. -/
theorem materialize_triple (hL : L.Holds store) (hR : R.Holds store) (hb : b.budget.Sound)
    (hl : L.opening = .ok left) (hr : R.opening = .ok right) :
    Triple store (Ready b L.shows R.shows) materialize
      (fun _ j => ∃ full, (profile b L R).opening = .ok full ∧ (profile b L R).shows full j)
      (fun e j => (profile b L R).opening = .error e ∧ (profile b L R).closed j) := by
  have hopening := opening_of_sides (b := b) hl hr
  refine (materialize_of_sides (hL.plays hl) (hR.plays hr) hb).imp (fun _ => id) ?_ ?_
  · rintro _ j ⟨rows, hanswer, hj⟩
    refine ⟨⟨rows, none⟩, ?_, hj⟩
    rw [hopening, hanswer]
    rfl
  · rintro e _ ⟨hanswer, j, hj, rfl⟩
    refine ⟨?_, closed_close hL hR (own_of_ready hL hR hj)⟩
    rw [hopening, hanswer]
    rfl

/-- Where both sides go back to their first rows, an open join finds the answer to them again. -/
theorem rewind_of_sides (hl : Cursor.Plays store ls left showsLeft)
    (hr : Cursor.Plays store rs right showsRight) {j : Join σ τ} (hb : j.bare.budget.Sound)
    (hopen : j.pending.isSome = true)
    (hleft : (Cursor.rewind store j.left).result = .ok () ∧
      Cursor.Playing showsLeft (Cursor.rewind store j.left).state)
    (hright : (Cursor.rewind store j.right).result = .ok () ∧
      Cursor.Playing showsRight (Cursor.rewind store j.right).state) :
    Triple store (· = j) rewind
      (fun _ j' => ∃ rows, j.bare.answer ls rs left right = .ok rows ∧
        Giving j.bare showsLeft showsRight ⟨rows, none⟩ j')
      (fun e _ => j.bare.answer ls rs left right = .error e) := by
  have hnot : ¬ j.pending.isNone = true := by
    cases hp : j.pending <;> simp_all
  apply Triple.getBindAt
  rw [if_neg hnot]
  refine Triple.bind (R := fun _ => Ready j.bare showsLeft showsRight) (Triple.onError ?_) fun _ => ?_
  · refine Triple.bind (R := fun _ t => t.bare = j.bare ∧ Cursor.Playing showsLeft t.left ∧
      t.right = j.right) (Triple.zoom ?_) fun _ => Triple.zoom ?_
    · rintro _ rfl
      apply Triple.intro
      · rintro _ _ rfl -
        exact ⟨rfl, hleft.2, rfl⟩
      · rintro _ e rfl he
        rw [hleft.1] at he
        cases he
    · rintro t ⟨hbare, hplaying, hsame⟩
      rw [← hsame] at hright
      apply Triple.intro
      · rintro _ _ rfl -
        exact ⟨hbare, hplaying, hright.2⟩
      · rintro _ e rfl he
        rw [hright.1] at he
        cases he
  · refine Triple.bind (R := fun _ => Ready j.bare showsLeft showsRight)
      (Triple.modify fun _ hj => hj) fun _ => ?_
    exact (materialize_of_sides hl hr hb).imp (fun _ => id) (fun _ _ => id) fun _ _ => And.left

end Finding

/-- A start opens the left side, then the right side, and finds the rows. -/
theorem start_triple (hL : L.Holds store) (hR : R.Holds store) (hb : b.budget.Sound) :
    Triple store (profile b L R).closed start
      (fun _ j => ∃ full, (profile b L R).opening = .ok full ∧ (profile b L R).shows full j)
      (fun e j => (profile b L R).opening = .error e ∧ (profile b L R).closed j) := by
  refine Triple.getBind ?_
  rintro j ⟨hpending, hbare, hl, hr⟩
  rw [if_neg (by simp [hpending])]
  -- the left side opens, or nothing has changed
  refine Triple.bind (R := fun _ j => (∃ left, L.opening = .ok left ∧ L.shows left j.left) ∧
    j.pending = none ∧ j.bare = b ∧ R.closed j.right) (Triple.zoom ?_) fun _ => ?_
  · rintro _ rfl
    refine hL.start.imp (fun _ hs => hs ▸ hl) (fun _ s hs => ⟨hs, hpending, hbare, hr⟩) ?_
    rintro e s ⟨he, hs⟩
    exact ⟨opening_of_left_error he, hpending, hbare, hs, hr⟩
  refine Triple.each ?_
  rintro j ⟨⟨left, hleft, hl⟩, hpending, hbare, hr⟩
  -- the right side opens, or the left one is closed again
  refine Triple.bind (R := fun _ j => (∃ right, R.opening = .ok right ∧ R.shows right j.right) ∧
    j.bare = b ∧ L.shows left j.left) (Triple.onError (Triple.zoom ?_)) fun _ => ?_
  · rintro _ rfl
    refine hR.start.imp (fun _ hs => hs ▸ hr) (fun _ s hs => ⟨hs, hbare, hl⟩) ?_
    rintro e s ⟨he, hs⟩
    exact ⟨opening_of_right_error hleft he, hpending, hbare, hL.close (hL.own_of_shows hl), hs⟩
  refine Triple.each ?_
  rintro j ⟨⟨right, hright, hr⟩, hbare, hl⟩
  exact (materialize_triple hL hR hb hleft hright).imp
    (fun _ hj => hj ▸ ⟨hbare, ⟨_, hl⟩, ⟨_, hr⟩⟩) (fun _ _ => id) (fun _ _ => id)

/-- A start that does not find all closed fails, and the join stays closed if it was. -/
theorem start_refused (hL : L.Holds store) (hR : R.Holds store) {j : Join σ τ}
    (hj : (profile b L R).own j) (hclosed : ¬ (profile b L R).closed j) :
    Triple store (· = j) start (fun _ _ => False)
      (fun _ j' => (profile b L R).own j' ∧ ((profile b L R).resting j → (profile b L R).resting j')) := by
  obtain ⟨hbare, hl, hr⟩ := hj
  refine Triple.getBindAt ?_
  by_cases hopen : j.pending.isSome
  · rw [if_pos hopen]
    refine Triple.fail ?_
    rintro _ rfl
    exact ⟨⟨hbare, hl, hr⟩, id⟩
  have hpending : j.pending = none := by simpa using hopen
  rw [if_neg hopen]
  refine Triple.bind (R := fun _ j' => L.closed j.left ∧ j'.pending = none ∧ j'.bare = b ∧
    L.own j'.left ∧ j'.right = j.right) (Triple.zoom ?_) fun _ => ?_
  · rintro _ rfl
    refine (hL.start_own hl).imp (fun _ => id) ?_ ?_
    · rintro _ s ⟨hlc, hs⟩
      exact ⟨hlc, hpending, hbare, hs, rfl⟩
    · rintro e s hs
      exact ⟨⟨hbare, hs, hr⟩, fun _ => ⟨hpending, hbare, hs, hr⟩⟩
  refine Triple.each ?_
  rintro j' ⟨hlc, hpending', hbare', hl', hright⟩
  -- the left side was closed, so it is the right side that was not
  have hrc : ¬ R.closed j.right := fun hrc => hclosed ⟨hpending, hbare, hlc, hrc⟩
  refine Triple.bind (R := fun _ _ => False) (Triple.onError (Triple.zoom ?_)) fun _ _ => False.elim
  rintro _ rfl
  refine (hR.start_refused hr hrc).imp (fun _ hs => hs.trans hright) (fun _ _ => id) ?_
  rintro e s ⟨hs, -⟩
  have hlc' := hL.own_of_resting (hL.resting_of_closed (hL.close hl'))
  exact ⟨⟨hbare', hlc', hs⟩, fun _ => ⟨hpending', hbare', hlc', hs⟩⟩

/-! ## The open join -/

omit [Cursor σ] [Cursor τ] [Sorting] in
/-- Taking a row takes it from the rows at hand. -/
theorem next_of_pending (store : PageStore) {j : Join σ τ} {rows : List Row} (h : j.pending = some rows) :
    next store j =
      { result := Script.next ⟨rows, none⟩, state := { j with pending := some rows.tail } } := by
  unfold next
  simp only [bind, Call.bind, Call.get, Call.ofExcept, Call.modify, pure, Call.pure, h,
    Replay.next_some]
  cases rows with
  | nil =>
    show ({ result := _, state := j } : Outcome (Join σ τ) Row) = _
    rw [show j = { j with pending := some [] } by rw [← h]]
    rfl
  | cons row rows => rfl

/-- A join over sides that play their scripts gives the rows it found, and finds them again when it is
sent back. -/
theorem plays_of_sides {ls rs : Schema} {left right : Script} {showsLeft : Script → σ → Prop}
    {showsRight : Script → τ → Prop} (hl : Cursor.Plays store ls left showsLeft)
    (hr : Cursor.Plays store rs right showsRight) (hb : b.budget.Sound) {rows : List Row}
    (hanswer : b.answer ls rs left right = .ok rows) :
    Cursor.Plays store b.schema ⟨rows, none⟩ (Giving b showsLeft showsRight) where
  schema_eq := by
    rintro script j ⟨-, -, rfl, -⟩
    rfl
  hasNext := by
    rintro ⟨rows, _⟩ j ⟨rfl, hpending, hj⟩
    have hres : (hasNext store j).result = Script.hasNext ⟨rows, none⟩ := by
      rw [← Replay.hasNext_some .join rows]
      exact congrArg (Replay.hasNext .join) hpending
    exact ⟨hres, rfl, hpending, hj⟩
  next := by
    rintro ⟨rows, _⟩ j ⟨rfl, hpending, hj⟩
    have hnext := next_of_pending store hpending
    refine ⟨congrArg Outcome.result hnext, ?_⟩
    rw [show (Cursor.next store j).state = _ from congrArg Outcome.state hnext]
    exact ⟨rfl, rfl, hj⟩
  rewind := by
    rintro script j ⟨-, hpending, rfl, ⟨_, hsl⟩, ⟨_, hsr⟩⟩
    obtain ⟨hleft, hsl'⟩ := hl.rewind hsl
    obtain ⟨hright, hsr'⟩ := hr.rewind hsr
    have hrewind := rewind_of_sides hl hr hb (by simp [hpending]) ⟨hleft, _, hsl'⟩ ⟨hright, _, hsr'⟩
    -- the answer is that of the start, since both sides gave their whole scripts
    show (rewind store j).result = _ ∧ Giving j.bare showsLeft showsRight _ (rewind store j).state
    cases hres : (rewind store j).result with
    | ok u =>
      obtain ⟨rows', hrows', hj⟩ := hrewind.of_ok rfl hres
      cases hanswer.symm.trans hrows'
      exact ⟨rfl, hj⟩
    | error e => cases hanswer.symm.trans (hrewind.of_error rfl hres)

/-- An open join gives the rows it found, and finds them again when it is sent back. -/
theorem plays (hL : L.Holds store) (hR : R.Holds store) (hb : b.budget.Sound) {full : Script}
    (hfull : (profile b L R).opening = .ok full) :
    Cursor.Plays store b.schema full (profile b L R).shows := by
  obtain ⟨left, right, rows, hleft, hright, hanswer, rfl⟩ := opening_eq_ok_iff.1 hfull
  exact plays_of_sides (hL.plays hleft) (hR.plays hright) hb hanswer

/-! ## The profile -/

/-- A join refuses calls in the wrong state. -/
theorem guarded : Cursor.Guarded store fun j : Join σ τ => j.pending.isSome where
  start := by
    intro j hj
    have hstart : start store j = { result := .error (.usage (.alreadyOpen .join)), state := j } := by
      simp [start, bind, Call.bind, Call.get, Call.fail, Call.ofExcept, hj]
    exact ⟨.join, congrArg Outcome.result hstart, congrArg Outcome.state hstart⟩
  hasNext := by
    intro j hj
    have hpending : j.pending = none := by simpa using hj
    exact ⟨.join, congrArg (Replay.hasNext .join) hpending, rfl⟩
  next := by
    intro j hj
    have hpending : j.pending = none := by simpa using hj
    have hnext : next store j = { result := .error (.usage (.notOpen .join)), state := j } := by
      simp [next, bind, Call.bind, Call.get, Call.ofExcept, hpending, Replay.next]
    exact ⟨.join, congrArg Outcome.result hnext, congrArg Outcome.state hnext⟩
  rewind := by
    intro j hj
    have hpending : j.pending = none := by simpa using hj
    have hrewind : rewind store j = { result := .error (.usage (.notOpen .join)), state := j } := by
      simp [rewind, bind, Call.bind, Call.get, Call.fail, Call.ofExcept, hpending]
    exact ⟨.join, congrArg Outcome.result hrewind, congrArg Outcome.state hrewind⟩

/-- A join is as its profile says, if its sides are as theirs. -/
theorem profile_holds (hL : L.Holds store) (hR : R.Holds store) (hb : b.budget.Sound) :
    (profile b L R).Holds store where
  own_of_resting := And.right
  resting_of_closed := by
    rintro j ⟨hpending, hbare, hl, hr⟩
    exact ⟨hpending, hbare, hL.own_of_resting (hL.resting_of_closed hl),
      hR.own_of_resting (hR.resting_of_closed hr)⟩
  own_of_shows := by
    rintro script j ⟨-, -, hj⟩
    exact own_of_ready hL hR hj
  schema_eq := by
    rintro j ⟨rfl, -⟩
    rfl
  close := closed_close hL hR
  start := start_triple hL hR hb
  start_refused := start_refused hL hR
  start_open := by
    rintro script j ⟨-, hpending, -⟩
    exact guarded.start (by simp [hpending])
  hasNext_resting := by
    rintro j ⟨hpending, -⟩
    exact guarded.hasNext (by simp [hpending])
  next_resting := by
    rintro j ⟨hpending, -⟩
    exact guarded.next (by simp [hpending])
  rewind_resting := by
    rintro j ⟨hpending, -⟩
    exact guarded.rewind (by simp [hpending])
  plays := fun hfull => plays hL hR hb hfull

/-! ## What no call changes -/

section Obeys

variable {P Q W : Row → Prop} {F : StreamError → Prop} {I : σ → Prop} {J : τ → Prop}

/-- A join with the settings `b` over sides for which `I` and `J` hold, with rows of `W` still to
come. -/
def Carrying (W : Row → Prop) (b : Join Unit Unit) (I : σ → Prop) (J : τ → Prop) (j : Join σ τ) : Prop :=
  Inside b (Kept I J) j ∧ Replay.All W j.pending

omit [Sorting] in
/-- A closed join has no rows to give. -/
theorem carrying_close (hl : Cursor.Obeys store P F I) (hr : Cursor.Obeys store Q F J) {j : Join σ τ}
    (h : Inside b (Kept I J) j) : Carrying W b I J j.close :=
  ⟨⟨h.1, hl.close h.2.1, hr.close h.2.2⟩, Replay.all_none W⟩

section Finding

variable (hl : Cursor.Obeys store P F I) (hr : Cursor.Obeys store Q F J) (hb : b.budget.Sound)
  (hF : ∀ e : StreamError, e.isTyping = false → F e) (hfields : Fields b.predicate F I J)
  (hpair : ∀ l r, P l → Q r → W (l.append r b.schema))
include hl hr hb hF hfields hpair

theorem materialize_carries : Triple store (Inside b (Kept I J)) materialize (fun _ => Carrying W b I J)
    (fun e j => F e ∧ Carrying W b I J j) := by
  have hcompute := compute_yields hl.reads hr.reads (fun e _ => hF e) hb hfields
  refine Triple.bind (Triple.onError (hcompute.imp (fun _ => id) (fun _ _ => id) ?_)) fun rows => ?_
  · rintro e j ⟨hbare, he, hi, hj⟩
    exact ⟨he, carrying_close hl hr ⟨hbare, hi, hj⟩⟩
  · apply Triple.modify
    rintro j ⟨hfound, hj⟩
    refine ⟨hj, Replay.all_some.2 fun row hrow => ?_⟩
    obtain ⟨l, r, hp, hq, rfl⟩ := hfound row hrow
    exact hpair l r hp hq

theorem start_carries : Triple store (Carrying W b I J) start (fun _ => Carrying W b I J)
    (fun e j => F e ∧ Carrying W b I J j) := by
  refine Triple.getBind fun j hj => ?_
  by_cases hopen : j.pending.isSome
  · rw [if_pos hopen]
    exact Triple.fail fun _ ht => ⟨hF _ rfl, ht ▸ hj⟩
  rw [if_neg hopen]
  refine Triple.bind (R := fun _ => Carrying W b I J) (Triple.zoom ?_) fun _ => ?_
  · rintro _ rfl
    exact hl.start.imp (fun _ hs => hs ▸ hj.1.2.1) (fun _ _ hs => ⟨⟨hj.1.1, hs, hj.1.2.2⟩, hj.2⟩)
      (fun _ _ hs => ⟨hs.1, ⟨hj.1.1, hs.2, hj.1.2.2⟩, hj.2⟩)
  refine Triple.bind (R := fun _ => Carrying W b I J) (Triple.onError (Triple.zoom ?_)) fun _ =>
    (materialize_carries hl hr hb hF hfields hpair).imp (fun _ => And.left) (fun _ _ => id) (fun _ _ => id)
  rintro j ⟨⟨hbare, hi, hj⟩, hpending⟩
  exact hr.start.imp (fun _ hs => hs ▸ hj) (fun _ _ hs => ⟨⟨hbare, hi, hs⟩, hpending⟩)
    (fun _ _ hs => ⟨hs.1, ⟨hbare, hl.close hi, hs.2⟩, hpending⟩)

theorem rewind_carries : Triple store (Carrying W b I J) rewind (fun _ => Carrying W b I J)
    (fun e j => F e ∧ Carrying W b I J j) := by
  refine Triple.getBind fun j hj => ?_
  by_cases hopen : j.pending.isNone
  · rw [if_pos hopen]
    exact Triple.fail fun _ ht => ⟨hF _ rfl, ht ▸ hj⟩
  rw [if_neg hopen]
  refine Triple.bind (R := fun _ => Inside b (Kept I J)) (Triple.onError ?_) fun _ => ?_
  · refine Triple.bind (R := fun _ => Inside b (Kept I J)) (Triple.zoom ?_) fun _ => Triple.zoom ?_
    · rintro _ rfl
      exact hl.reads.rewind.imp (fun _ hs => hs ▸ hj.1.2.1) (fun _ _ hs => ⟨hj.1.1, hs, hj.1.2.2⟩)
        (fun _ _ hs => ⟨hs.1, carrying_close hl hr ⟨hj.1.1, hs.2, hj.1.2.2⟩⟩)
    · rintro j ⟨hbare, hi, hj⟩
      exact hr.reads.rewind.imp (fun _ hs => hs ▸ hj) (fun _ _ hs => ⟨hbare, hi, hs⟩)
        (fun _ _ hs => ⟨hs.1, carrying_close hl hr ⟨hbare, hi, hs.2⟩⟩)
  · exact Triple.bind (R := fun _ => Inside b (Kept I J)) (Triple.modify fun _ hj => hj) fun _ =>
      materialize_carries hl hr hb hF hfields hpair

/-- No call changes the settings of a join, nor of its sides what no call on them changes. Its rows are
made of rows of the sides; its failures are theirs, or its own. -/
theorem obeys : Cursor.Obeys store W F (Carrying W b I J : Join σ τ → Prop) where
  start := start_carries hl hr hb hF hfields hpair
  reads := {
    weaken := id
    hasNext := Replay.hasNext_triple hF .join pending
    next := Replay.next_triple hF .join pending (fun r j => { j with pending := r })
      (fun _ hj => hj.2) (fun _ _ hj hr => ⟨hj.1, hr⟩)
    rewind := rewind_carries hl hr hb hF hfields hpair }
  close := fun hj => carrying_close hl hr hj.1

end Finding

/-- No call changes the settings of a join, nor of its sides what no call on them changes. -/
theorem stays (hl : Cursor.Stays store I) (hr : Cursor.Stays store J) (hb : b.budget.Sound) :
    Cursor.Stays store (Inside b (Kept I J) : Join σ τ → Prop) := by
  have hobeys := obeys (W := fun _ => True) hl.obeys hr.obeys hb (fun _ _ => trivial)
    (fun _ _ _ _ _ _ => trivial) (fun _ _ _ _ => trivial)
  exact (hobeys.congr fun j => ⟨fun hj => ⟨hj, Replay.all_true _⟩, And.left⟩).stays

end Obeys

end RowStream.Join
