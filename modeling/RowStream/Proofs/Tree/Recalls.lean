import RowStream.Proofs.Tree.Together

/-!
# `RowStream.Proofs.Tree.Recalls` — what an open tree keeps of its opening

While a tree stays open, its aggregates keep the groups that they found when it was opened, and
nothing else is kept. So the tree recalls its opening, whatever becomes of the store, of the
strategies and of the accounts; and as soon as these are again what they were, it is as its profile
at the opening says.

## Contents
- `Cursor.Retains` — reading a stream keeps an invariant, also where it fails.
- `Scan.playing_eq`, `Join.retains`, `Aggregate.retains` — one kind of stream at a time.
- `Node.Recalls` — an open tree whose aggregates hold the groups of its opening.
- `Node.recalls_of_shows`, `Node.retains` — a start leads to such a tree, and reading it keeps it so.
- `Node.Retuned`, `Node.SetAs` — other strategies and accounts, and the same ones.
- `Node.playing_of_recalls` — with the same ones, the tree is as its profile says.
-/

namespace RowStream

open Call

/-- The calls by which a stream is read keep `I`, whether they fail or not; only a stream that cannot
be sent back may lose it. -/
structure Cursor.Retains {σ : Type} [Cursor σ] (store : PageStore) (I : σ → Prop) : Prop where
  /-- Looking for a row. -/
  hasNext : Triple store I Cursor.hasNext (fun _ => I) (fun _ => I)
  /-- Taking a row. -/
  next : Triple store I Cursor.next (fun _ => I) (fun _ => I)
  /-- Going back to the first row. -/
  rewind : Triple store I Cursor.rewind (fun _ => I) (fun _ _ => True)

namespace Cursor

variable {σ : Type} [Cursor σ] {store : PageStore}

/-- An operator that reads such a stream may rely on `I` until something fails. -/
theorem Retains.keeps {I : σ → Prop} (h : Cursor.Retains store I) :
    Cursor.Keeps store (fun _ => True) I (fun _ => True) where
  weaken := fun _ => trivial
  hasNext := h.hasNext.imp (fun _ => id) (fun _ _ => id) (fun _ _ _ => ⟨trivial, trivial⟩)
  next := h.next.imp (fun _ => id) (fun _ _ => id) (fun _ _ _ => ⟨trivial, trivial⟩)
  rewind := h.rewind.imp (fun _ => id) (fun _ _ => id) (fun _ _ _ => ⟨trivial, trivial⟩)

/-- A stream that plays its script goes on playing. -/
theorem Plays.retains {schema : Schema} {full : Script} {shows : Script → σ → Prop}
    (h : Plays store schema full shows) : Cursor.Retains store (Playing shows) where
  hasNext := by
    rintro s ⟨script, hs⟩
    have hplaying : Playing shows (Cursor.hasNext store s).state := ⟨script, (h.hasNext script s hs).2⟩
    cases (Cursor.hasNext store s).result <;> exact hplaying
  next := by
    rintro s ⟨script, hs⟩
    have hplaying : Playing shows (Cursor.next store s).state := ⟨script.tail, (h.next hs).2⟩
    cases (Cursor.next store s).result <;> exact hplaying
  rewind := by
    rintro s ⟨script, hs⟩
    obtain ⟨hres, hst⟩ := h.rewind hs
    rw [hres]
    exact ⟨full, hst⟩

end Cursor

/-! ## Scans -/

namespace Scan

/-- Which positions a scan can have does not depend on what the store holds now. -/
theorem playing_eq (store store' : PageStore) (s₀ : Scan) :
    Cursor.Playing (profile store s₀).shows = Cursor.Playing (profile store' s₀).shows := by
  have hgo : ∀ (store store' : PageStore) (s : Scan), Cursor.Playing (profile store s₀).shows s →
      Cursor.Playing (profile store' s₀).shows s := by
    rintro store store' s ⟨script, p, hs, -, hagree⟩
    exact ⟨_, p, hs, rfl, hagree⟩
  funext s
  exact propext ⟨hgo store store' s, hgo store' store s⟩

/-- A scan of a table that is there can be started. -/
theorem opening_of_wellSet {store : PageStore} {s₀ : Scan} (h : s₀.WellSet store) :
    ∃ full, (profile store s₀).opening = .ok full := by
  obtain ⟨columns, hcolumns, -⟩ := h
  obtain ⟨t, ht, -⟩ := PageStore.table_of_columns? hcolumns
  refine ⟨pagesScript store s₀.table s₀.schema (List.range t.pages.size), ?_⟩
  unfold profile PageStore.numPages
  rw [ht]
  rfl

/-- Reading a scan keeps it a scan of its table, whatever that held when it was opened. -/
theorem retains {store : PageStore} (hstore : store.Sound) (store₀ : PageStore) {s₀ : Scan}
    (h : s₀.WellSet store) : Cursor.Retains store (Cursor.Playing (profile store₀ s₀).shows) := by
  obtain ⟨full, hfull⟩ := opening_of_wellSet h
  rw [playing_eq store₀ store]
  exact (plays (WellSet.fits hstore h) hfull).retains

end Scan

/-! ## Covers -/

theorem Sealed.retains {σ : Type} [Cursor σ] {store : PageStore} {I : σ → Prop}
    (h : Cursor.Retains store I) : Cursor.Retains store fun s : Sealed σ => I s.inner where
  hasNext := fun s hs => h.hasNext s.inner hs
  next := fun s hs => h.next s.inner hs
  rewind := fun s hs => h.rewind s.inner hs

/-! ## Joins -/

namespace Join

variable {σ τ : Type} {store : PageStore} {f : Frame} {I : σ → Prop} {J : τ → Prop}

/-- An open join with the frame `f`, and something of its sides. -/
def Recalls (f : Frame) (I : σ → Prop) (J : τ → Prop) (j : Join σ τ) : Prop :=
  j.pending.isSome ∧ Around f (Kept I J) j

variable [Cursor σ] [Cursor τ]

/-- Finding the rows keeps what reading the sides keeps. -/
theorem materialize_retains [Sorting] (hl : Cursor.Retains store I) (hr : Cursor.Retains store J) :
    Triple store (Around f (Kept I J)) materialize (fun _ => Recalls f I J) (fun _ _ => True) := by
  have hcompute := compute_around hl.keeps hr.keeps (fun _ _ => trivial) f
  unfold materialize
  refine Triple.bind (Triple.onError hcompute) fun rows => Triple.modify ?_
  intro j hj
  exact ⟨rfl, hj⟩

/-- Reading a join keeps what reading its sides keeps. -/
theorem retains [Sorting] (hl : Cursor.Retains store I) (hr : Cursor.Retains store J) :
    Cursor.Retains store (Recalls f I J : Join σ τ → Prop) where
  hasNext := Triple.still (state_hasNext store)
  next := by
    refine Triple.getBind fun j hj => ?_
    have hnext := Replay.next_of_isSome .join hj.1
    refine Triple.bind (R := fun taken j => taken.2.isSome ∧ Around f (Kept I J) j)
      (Triple.ofExcept ?_ ?_) fun taken => ?_
    · rintro _ taken rfl htaken
      rw [htaken] at hnext
      exact ⟨hnext, hj.2⟩
    · rintro _ e rfl -
      exact hj
    · refine Triple.bind (R := fun _ => Recalls f I J) (Triple.modify ?_) fun _ =>
        Triple.pure fun _ => id
      intro j hj
      exact hj
  rewind := by
    refine Triple.getBind ?_
    rintro j ⟨hpending, hj⟩
    rw [if_neg (by simpa using Option.isSome_iff_ne_none.1 hpending)]
    refine Triple.bind (R := fun _ => Around f (Kept I J)) (Triple.onError ?_) fun _ =>
      Triple.bind (R := fun _ => Around f (Kept I J)) (Triple.modify fun _ hj => hj) fun _ =>
        materialize_retains hl hr
    -- the sides are sent back one after the other
    refine Triple.bind (R := fun _ => Around f (Kept I J)) (Triple.zoom ?_) fun _ => Triple.zoom ?_
    · rintro _ rfl
      exact hl.rewind.imp (fun _ hs => hs ▸ hj.2.1) (fun _ _ hs => ⟨hj.1, hs, hj.2.2⟩)
        (fun _ _ _ => trivial)
    · intro j hj
      exact hr.rewind.imp (fun _ hs => hs ▸ hj.2.2) (fun _ _ hs => ⟨hj.1, hj.2.1, hs⟩)
        (fun _ _ _ => trivial)

end Join

/-! ## Aggregates -/

namespace Aggregate

variable {σ : Type} {store : PageStore} {b : Aggregate Unit} {I : σ → Prop} {G : Grouping → Prop}

/-- The groups of an aggregate with the settings `b`, when it is opened over a child with the
profile `C`. -/
def Found [Grouping.Listing] (b : Aggregate Unit) (C : Profile σ) (groups : Grouping) : Prop :=
  ∃ child rows, C.opening = .ok child ∧ b.answer child = .ok (groups, rows)

/-- An open aggregate with the settings `b`, something of its child, and something of its groups. -/
def Recalls (b : Aggregate Unit) (I : σ → Prop) (G : Grouping → Prop) (a : Aggregate σ) : Prop :=
  Over b I a ∧ ∃ run, a.run = some run ∧ G run.groups

/-- Reading an aggregate keeps its groups and leaves its child alone. -/
theorem retains [Grouping.Listing] [Cursor σ] :
    Cursor.Retains store (Recalls b I G : Aggregate σ → Prop) where
  hasNext := Triple.still (state_hasNext store)
  next := by
    refine Triple.getBind ?_
    rintro a ⟨ha, ⟨groups, pending⟩, hrun, hgroups⟩
    rw [hrun]
    cases pending with
    | nil =>
      refine Triple.fail ?_
      rintro _ rfl
      exact ⟨ha, ⟨groups, []⟩, hrun, hgroups⟩
    | cons row pending =>
      refine Triple.bind (R := fun _ => Recalls b I G) (Triple.modify ?_) fun _ =>
        Triple.pure fun _ => id
      rintro _ rfl
      exact ⟨ha, ⟨groups, pending⟩, rfl, hgroups⟩
  rewind := by
    refine Triple.getBind ?_
    rintro a ⟨ha, run, hrun, hgroups⟩
    rw [hrun]
    refine Triple.getBind ?_
    rintro _ rfl
    refine Triple.bind (R := fun _ => Over b I) (Triple.ofExcept ?_ fun _ _ _ _ => trivial)
      fun rows => Triple.modify ?_
    · rintro _ rows rfl -
      exact ha
    · intro a ha
      exact ⟨ha, ⟨run.groups, rows⟩, rfl, hgroups⟩

end Aggregate

/-! ## Trees -/

namespace Node

variable [Join.Sorting] [Grouping.Listing]

/-- An open tree with the settings of `t₀`, but for strategies and accounts, whose aggregates hold
the groups that they find when `t₀` is opened over `store₀`. -/
def Recalls (store₀ : PageStore) : {shape : Shape} → Node shape → Node shape → Prop
  | .materialized, s₀, s => Cursor.Playing (Materialized.profile s₀).shows s
  | .scan, s₀, s => Cursor.Playing (Scan.profile store₀ s₀).shows s
  | .sealed _, s₀, s => Recalls store₀ (Sealed.inner s₀) (Sealed.inner s)
  | .join _ _, j₀, j =>
    Join.Recalls (Join.frame j₀) (Recalls store₀ (Join.left j₀)) (Recalls store₀ (Join.right j₀)) j
  | .aggregate _, a₀, a =>
    Aggregate.Recalls (Aggregate.bare a₀) (Recalls store₀ (Aggregate.child a₀))
      (Aggregate.Found (Aggregate.bare a₀) (profile store₀ (Aggregate.child a₀))) a

variable {store store₀ : PageStore}

/-- A tree that was just opened recalls that. -/
theorem recalls_of_shows {shape : Shape} {t₀ t : Node shape} {script : Script}
    (h : (t₀.profile store₀).shows script t) : Recalls store₀ t₀ t := by
  induction shape generalizing script with
  | materialized => exact ⟨script, h⟩
  | scan => exact ⟨script, h⟩
  | sealed inner ih => exact ih h
  | join left right ihl ihr =>
    obtain ⟨-, hpending, hbare, ⟨leftScript, hl⟩, rightScript, hr⟩ := h
    have hframe : Join.frame t = Join.frame t₀ := (congrArg Join.frame hbare : _)
    have hopen : (Join.pending t).isSome := by simp [hpending]
    exact ⟨hopen, hframe, ihl hl, ihr hr⟩
  | aggregate child ih =>
    obtain ⟨-, hbare, ⟨childScript, hc⟩, full, groups, rows, hfull, hanswer, hrun⟩ := h
    exact ⟨⟨hbare, ih hc⟩, ⟨groups, script.rows⟩, hrun, full, rows, hfull, hanswer⟩

/-- Reading a tree keeps it so, whatever has become of the store. -/
theorem retains (hstore : store.Sound) (store₀ : PageStore) {shape : Shape} {t₀ : Node shape}
    (h : t₀.WellFormed store) : Cursor.Retains store (Recalls store₀ t₀) := by
  induction shape with
  | materialized => exact (Materialized.plays t₀).retains
  | scan => exact Scan.retains hstore store₀ h
  | sealed inner ih => exact Sealed.retains (ih h)
  | join left right ihl ihr =>
    obtain ⟨-, hl, hr⟩ := h
    exact Join.retains (ihl hl) (ihr hr)
  | aggregate child ih => exact Aggregate.retains

/-- A tree that recalls its opening is open throughout, and its aggregates have rows for their
groups. -/
theorem ready_of_recalls {shape : Shape} {t₀ t : Node shape} (h : Recalls store₀ t₀ t) :
    t.Ready := by
  induction shape with
  | materialized =>
    obtain ⟨script, -, rfl⟩ := h
    rfl
  | scan =>
    obtain ⟨script, p, rfl, -, -⟩ := h
    rfl
  | sealed inner ih => exact ih h
  | join left right ihl ihr =>
    obtain ⟨hopen, -, hl, hr⟩ := h
    exact ⟨hopen, ihl hl, ihr hr⟩
  | aggregate child ih =>
    obtain ⟨⟨hbare, hc⟩, run, hrun, full, rows, -, hanswer⟩ := h
    have hschema : Aggregate.schema t = Aggregate.schema t₀ := (congrArg Aggregate.schema hbare : _)
    have hrows : run.groups.rows (Aggregate.schema t) = .ok rows := by
      rw [hschema]
      exact Aggregate.rows_of_answer hanswer
    exact ⟨⟨run, rows, hrun, hrows⟩, ih hc⟩

/-! ### Strategies and accounts -/

/-- The same tree, but for the strategies and the accounts of its joins. -/
def Retuned : {shape : Shape} → Node shape → Node shape → Prop
  | .materialized, s, s' => s' = s
  | .scan, s, s' => s' = s
  | .sealed _, s, s' => Retuned (Sealed.inner s) (Sealed.inner s')
  | .join left right, j, j' => ∃ (strategy : Strategy) (budget : Budget) (l : Node left)
      (r : Node right), Retuned (Join.left j) l ∧ Retuned (Join.right j) r ∧
        j' = { (j : Join (Node left) (Node right)) with strategy, budget, left := l, right := r }
  | .aggregate child, a, a' => ∃ c : Node child, Retuned (Aggregate.child a) c ∧
      a' = { (a : Aggregate (Node child)) with child := c }

/-- Every join has the strategy that it has in `t₀`, and as much is taken of its account as in
`t₀`. -/
def SetAs : {shape : Shape} → Node shape → Node shape → Prop
  | .materialized, _, _ => True
  | .scan, _, _ => True
  | .sealed _, s₀, s => SetAs (Sealed.inner s₀) (Sealed.inner s)
  | .join _ _, j₀, j =>
    Join.strategy j = Join.strategy j₀ ∧ (Join.budget j).unmarked = (Join.budget j₀).unmarked ∧
      SetAs (Join.left j₀) (Join.left j) ∧ SetAs (Join.right j₀) (Join.right j)
  | .aggregate _, a₀, a => SetAs (Aggregate.child a₀) (Aggregate.child a)

/-- Other strategies and accounts are nothing that a tree recalls. -/
theorem recalls_of_retuned {shape : Shape} {t₀ t t' : Node shape} (h : Recalls store₀ t₀ t)
    (ht : t.Retuned t') : Recalls store₀ t₀ t' := by
  induction shape with
  | materialized =>
    obtain rfl := ht
    exact h
  | scan =>
    obtain rfl := ht
    exact h
  | sealed inner ih => exact ih h ht
  | join left right ihl ihr =>
    obtain ⟨hopen, hframe, hl, hr⟩ := h
    obtain ⟨strategy, budget, l, r, hl', hr', rfl⟩ := ht
    exact ⟨hopen, hframe, ihl hl hl', ihr hr hr'⟩
  | aggregate child ih =>
    obtain ⟨⟨hbare, hc⟩, hrun⟩ := h
    obtain ⟨c, hc', rfl⟩ := ht
    exact ⟨⟨hbare, ih hc hc'⟩, hrun⟩

omit [Join.Sorting] [Grouping.Listing] in
/-- A closed tree stays closed whatever is done to its strategies and accounts. -/
theorem allClosed_of_retuned {shape : Shape} {t t' : Node shape} (h : t.AllClosed)
    (ht : t.Retuned t') : t'.AllClosed := by
  induction shape with
  | materialized =>
    obtain rfl := ht
    exact h
  | scan =>
    obtain rfl := ht
    exact h
  | sealed inner ih => exact ih h ht
  | join left right ihl ihr =>
    obtain ⟨hclosed, hl, hr⟩ := h
    obtain ⟨strategy, budget, l, r, hl', hr', rfl⟩ := ht
    exact ⟨hclosed, ihl hl hl', ihr hr hr'⟩
  | aggregate child ih =>
    obtain ⟨hclosed, hc⟩ := h
    obtain ⟨c, hc', rfl⟩ := ht
    exact ⟨hclosed, ih hc hc'⟩

/-- With the strategies and the accounts that it had when it was opened, a tree that recalls its
opening is as its profile then says. -/
theorem playing_of_recalls {shape : Shape} {t₀ t : Node shape} (h : Recalls store₀ t₀ t)
    (hset : SetAs t₀ t) : Cursor.Playing (t₀.profile store₀).shows t := by
  induction shape with
  | materialized => exact h
  | scan => exact h
  | sealed inner ih => exact ih h hset
  | join left right ihl ihr =>
    obtain ⟨hopen, hframe, hl, hr⟩ := h
    obtain ⟨hstrategy, hbudget, hsl, hsr⟩ := hset
    obtain ⟨rows, hrows⟩ := Option.isSome_iff_exists.1 hopen
    -- the frame, the strategy and the account are all the settings of a join
    have hbare : Join.bare t = Join.bare t₀ := by
      unfold Join.frame at hframe
      simp only [Join.Frame.mk.injEq] at hframe
      obtain ⟨hpredicate, hschema, hbytes⟩ := hframe
      unfold Join.bare
      rw [hpredicate, hschema, hbytes, hstrategy, hbudget]
    exact ⟨⟨rows, none⟩, rfl, hrows, hbare, ihl hl hsl, ihr hr hsr⟩
  | aggregate child ih =>
    obtain ⟨⟨hbare, hc⟩, ⟨groups, pending⟩, hrun, full, rows, hfull, hanswer⟩ := h
    exact ⟨⟨pending, none⟩, rfl, hbare, ih hc hset, full, groups, rows, hfull, hanswer, hrun⟩

end Node

end RowStream
