import RowStream.Proofs.Tree.Rewound

/-!
# `RowStream.Proofs.Tree.Anew` — what closing a tree forgets

A tree that is closed and opened does what a tree would do that had just been built in its place:
from the same rows and tables, with the same conditions, functions and strategies, and with accounts
of which others hold as much. So nothing is left of what was asked of the old tree before, of the
failures it met, or of the state its children were in when it got them.

## Contents
- `Node.anew` — the tree that is built in the place of another.
- `Node.Leaves` — what holds of the leaves of a tree.
- `Scan.Named` — a scan calls the columns of its table by their full names.
- `Stream.named_of_built` — so does every scan of a tree that can come about.
- `Node.anew_of_own` — no call plays a part in what is built anew.
- `Node.anew_of_named` — the new tree is there, is closed, and has the profile of the old one.
- `Stream.start_close_anew` — closing and opening a tree is opening the new tree.
-/

namespace RowStream

/-- The join of two sides that is built with given settings; of its account, as much is taken as the
settings say. -/
def Join.anew {σ τ : Type} [Cursor σ] [Cursor τ] (b : Join Unit Unit) (left : σ) (right : τ) :
    Except StreamError (Join σ τ) := do
  let config : Config := { joinBufferBytes := b.bufferBytes, strategy := b.strategy }
  let new ← Join.make config b.budget.account b.predicate left right
  let (_, new) ← (new.reserve b.budget.used "held").mapError .ofMemory
  return new

namespace Node

/-- The tree that is built in the place of another over the store as it is, by what builds trees. What
others hold of an account is taken from the new one. -/
def anew [Join.Sorting] [Grouping.Listing] (store : PageStore) :
    {shape : Shape} → Node shape → Except StreamError (Node shape)
  | .materialized, s =>
    .ok ({ schema := Materialized.schema s, rows := Materialized.rows s } : Materialized)
  | .scan, s => (Scan.make store (Scan.table s) (Scan.qualifier s)).mapError .storage
  | .sealed _, s => do return Sealed.mk (← anew store (Sealed.inner s))
  | .join _ _, j => do
    let left ← anew store (Join.left j)
    Join.anew (Join.bare j) left (← anew store (Join.right j))
  | .aggregate _, a => do
    let child ← anew store (Aggregate.child a)
    Aggregate.make child (Aggregate.bare a).field (Aggregate.bare a).groupField (Aggregate.bare a).fn

/-- What holds of the leaves of a tree: one thing of rows at hand, another of scans. -/
def Leaves (M : Materialized → Prop) (S : Scan → Prop) : {shape : Shape} → Node shape → Prop
  | .materialized, s => M s
  | .scan, s => S s
  | .sealed _, s => Leaves M S (Sealed.inner s)
  | .join _ _, j => Leaves M S (Join.left j) ∧ Leaves M S (Join.right j)
  | .aggregate _, a => Leaves M S (Aggregate.child a)

variable {store : PageStore} {M : Materialized → Prop} {S : Scan → Prop} {shape : Shape}
  {t t' : Node shape}

/-- What holds of leaves wherever they stand holds of them also after calls. -/
theorem leaves_of_own [Join.Sorting] [Grouping.Listing]
    (hM : ∀ {s s' : Materialized}, s'.close = s.close → M s → M s')
    (hS : ∀ {s s' : Scan}, s'.close = s.close → S s → S s') (ht : (t.profile store).own t')
    (h : t.Leaves M S) : t'.Leaves M S := by
  induction shape with
  | materialized => exact hM ht h
  | scan => exact hS ht h
  | sealed inner ih => exact ih ht h
  | join left right ihl ihr => exact ⟨ihl ht.2.1 h.1, ihr ht.2.2 h.2⟩
  | aggregate child ih => exact ih ht.2 h

/-- Accounts play no part in the leaves. -/
theorem leaves_mapBudgets (f : Budget → Budget) : (t.mapBudgets f).Leaves M S ↔ t.Leaves M S := by
  induction shape with
  | materialized => exact Iff.rfl
  | scan => exact Iff.rfl
  | sealed inner ih => exact ih
  | join left right ihl ihr => exact and_congr ihl ihr
  | aggregate child ih => exact ih

/-- What holds of leaves goes over to what follows from it. -/
theorem Leaves.imp {M' : Materialized → Prop} {S' : Scan → Prop} (hM : ∀ s, M s → M' s)
    (hS : ∀ s, S s → S' s) (h : t.Leaves M S) : t.Leaves M' S' := by
  induction shape with
  | materialized => exact hM _ h
  | scan => exact hS _ h
  | sealed inner ih => exact ih h
  | join left right ihl ihr => exact ⟨ihl h.1, ihr h.2⟩
  | aggregate child ih => exact ih h

end Node

/-! ## The names of scans -/

/-- A scan calls the columns of its table by their full names. -/
def Scan.Named (store : PageStore) (s : Scan) : Prop :=
  ∃ columns, store.columns? s.table = some columns ∧ s.schema = columns.qualify s.qualifier

namespace Scan

variable {store store' : PageStore} {s : Scan} {table : TableId} {qualifier : String}

/-- A scan that is made is named after its table. -/
theorem named_of_make (h : make store table qualifier = .ok s) : s.Named store := by
  unfold make at h
  cases ht : store.table table with
  | error e => simp [ht, bind, Except.bind] at h
  | ok t =>
    simp only [ht, bind, Except.bind, pure, Except.pure, Except.ok.injEq] at h
    subst h
    exact ⟨t.schema, PageStore.columns?_of_table ht, rfl⟩

/-- Making such a scan again makes it as it is when it is closed. -/
theorem make_of_named (h : s.Named store) : make store s.table s.qualifier = .ok s.close := by
  obtain ⟨columns, hcolumns, hschema⟩ := h
  obtain ⟨t, ht, rfl⟩ := PageStore.table_of_columns? hcolumns
  unfold make close
  simp only [ht, bind, Except.bind, pure, Except.pure, Except.ok.injEq]
  rw [← hschema]

/-- A scan is named after its table also when it is pointed at another one. -/
theorem named_reset (h : s.Named store) (table : TableId) (qualifier : String) :
    (s.reset store table qualifier).2.Named store := by
  rw [reset_eq]
  cases hm : make store table qualifier with
  | ok new => exact named_of_make hm
  | error e => exact h

/-- Only what stays of a scan when it is closed plays a part. -/
theorem named_of_close {s' : Scan} (hs : s'.close = s.close) (h : s.Named store) :
    s'.Named store := by
  obtain ⟨columns, hcolumns, hschema⟩ := h
  have htable : s'.table = s.table := (congrArg Scan.table hs : _)
  have hqualifier : s'.qualifier = s.qualifier := (congrArg Scan.qualifier hs : _)
  have hsame : s'.schema = s.schema := (congrArg Scan.schema hs : _)
  exact ⟨columns, htable ▸ hcolumns, by rw [hsame, hqualifier, hschema]⟩

/-- A store that changes keeps the columns of its tables. -/
theorem named_of_step (hstep : store.Step store') (h : s.Named store) : s.Named store' := by
  obtain ⟨columns, hcolumns, hschema⟩ := h
  exact ⟨columns, hstep.columns_eq hcolumns, hschema⟩

end Scan

namespace Stream

variable {store : PageStore}

/-- Of a tree that can come about, all scans are named after their tables. -/
theorem named_of_built [Join.Sorting] [Grouping.Listing] {s : Stream} (h : s.Built store) :
    s.node.Leaves (fun _ => True) (Scan.Named store) := by
  induction h with
  | materialized => trivial
  | scan h => exact Scan.named_of_make h
  | reset table qualifier _ ih => exact Scan.named_reset ih table qualifier
  | cover _ ih => exact ih
  | join _ _ h ihl ihr =>
    obtain ⟨j, hj, rfl⟩ := of_join h
    obtain ⟨-, -, rfl⟩ := Join.of_make hj
    exact ⟨ihl, ihr⟩
  | aggregate _ h ih =>
    obtain ⟨a, ha, rfl⟩ := of_aggregate h
    obtain ⟨_, _, -, rfl⟩ := Aggregate.of_make ha
    exact ih
  | @setStrategy store s strategy _ ih =>
    obtain ⟨shape, t⟩ := s
    cases shape <;> exact ih
  | @setChildren store s s' children hs _ hset ih ihs =>
    cases rebinds_of_setChildren hset with
    | @join l r j left right j' hj =>
      obtain ⟨-, hleft, hright⟩ := Join.of_setChildren (wellFormed_of_built hs).1 hj
      have hl := ihs left (by simp)
      have hr := ihs right (by simp)
      rw [← hleft] at hl
      rw [← hright] at hr
      exact ⟨hl, hr⟩
    | @aggregate c a child a' ha =>
      obtain ⟨-, hchild⟩ := Aggregate.of_setChild ha
      have hc := ihs child (by simp)
      rw [← hchild] at hc
      exact hc
    | alone => exact ih
  | @call store s request hs ih =>
    have hown : (s.node.profile store).own (request.perform store s.node).state :=
      Node.own_perform request (wellFormed_of_built hs)
    exact Node.leaves_of_own (fun _ _ => trivial) Scan.named_of_close hown ih
  | share _ _ ih => exact (Node.leaves_mapBudgets _).2 ih
  | elapse hstep _ ih => exact ih.imp (fun _ => id) fun _ => Scan.named_of_step hstep

end Stream

/-! ## The tree in the place of another -/

/-- From a new account, what is taken of a sound one can be taken, and then the two differ in their
marks only. -/
theorem Budget.reserve_opened {b : Budget} (hb : b.Sound) (tag : String) :
    ∃ r b', reserve { account := b.account, capacity := b.capacity } b.used tag = .ok (r, b') ∧
      b'.unmarked = b.unmarked := by
  obtain ⟨account, capacity, used, peak⟩ := b
  have hused : used ≤ capacity := hb.used_le
  have htop : capacity < Word.top := hb.capacity_lt
  have hsum : Word.saturatingAdd 0 used = used := by
    unfold Word.saturatingAdd Word.top at *
    omega
  refine ⟨_, _, reserve_eq_ok_iff.2 ⟨fun _ => Nat.le_trans (Nat.le_of_eq hsum) hused, rfl, rfl⟩, ?_⟩
  unfold charged unmarked
  by_cases h0 : used = 0
  · rw [if_pos h0, h0]
  · simp [h0, hsum]

/-- With settings that fit two sides, a join of them can be built, and has these settings. -/
theorem Join.anew_of_wellSet {σ τ : Type} [Cursor σ] [Cursor τ] {b : Join Unit Unit} {left : σ}
    {right : τ} (h : b.WellSet (Cursor.schema left) (Cursor.schema right)) :
    ∃ new, Join.anew b left right = .ok new ∧ new.left = left ∧ new.right = right ∧
      new.pending = none ∧ new.bare = b.bare := by
  let config : Config := { joinBufferBytes := b.bufferBytes, strategy := b.strategy }
  have hvalid : config.validate = .ok () :=
    (Config.validate_eq_ok_iff config).2 ⟨h.buffer_pos, h.buffer_le, Nat.succ_pos _⟩
  have hmake : Join.make config b.budget.account b.predicate left right = .ok
      { predicate := b.predicate, schema := b.schema, strategy := b.strategy
        bufferBytes := b.bufferBytes
        budget := { account := b.budget.account, capacity := b.budget.capacity }
        left, right } := by
    unfold Join.make
    rw [hvalid, h.schema_eq, h.capacity_eq]
    simp only [Call.mapError_ok, bind, Except.bind, h.fields, pure, Except.pure]
    rfl
  -- what is taken of the old account is granted by the new one
  obtain ⟨r, budget, hgranted, hbudget⟩ := Budget.reserve_opened h.sound "held"
  refine ⟨{ predicate := b.predicate, schema := b.schema, strategy := b.strategy
            bufferBytes := b.bufferBytes, budget, left, right }, ?_, rfl, rfl, rfl, ?_⟩
  · unfold Join.anew
    simp only [bind, Except.bind]
    rw [hmake]
    unfold Join.reserve
    simp only [bind, Except.bind, hgranted, pure, Except.pure, Call.mapError_ok]
  · unfold Join.bare
    rw [hbudget]

/-- With settings that fit a child, an aggregate of it can be built, and has these settings. -/
theorem Aggregate.make_of_wellSet {σ : Type} [Cursor σ] {b : Aggregate Unit} {child : σ}
    (h : b.WellSet (Cursor.schema child)) :
    Aggregate.make child b.field b.groupField b.fn = .ok { b with child, run := none } := by
  unfold Aggregate.make
  rw [h]
  rfl

namespace Node

variable {store : PageStore} {shape : Shape} {t t' : Node shape} [Join.Sorting] [Grouping.Listing]

/-- No call plays a part in what is built anew: not the position of a stream, not its old rows, and not
what was taken of an account meanwhile. -/
theorem anew_of_own (ht : (t.profile store).own t') : t'.anew store = t.anew store := by
  induction shape with
  | materialized =>
    have hschema : Materialized.schema t' = Materialized.schema t :=
      (congrArg Materialized.schema ht : _)
    have hrows : Materialized.rows t' = Materialized.rows t := (congrArg Materialized.rows ht : _)
    unfold anew
    rw [hschema, hrows]
  | scan =>
    have htable : Scan.table t' = Scan.table t := (congrArg Scan.table ht : _)
    have hqualifier : Scan.qualifier t' = Scan.qualifier t := (congrArg Scan.qualifier ht : _)
    unfold anew
    rw [htable, hqualifier]
  | sealed inner ih =>
    unfold anew
    rw [ih ht]
  | join left right ihl ihr =>
    obtain ⟨hbare, hl, hr⟩ := ht
    unfold anew
    rw [ihl hl, ihr hr, hbare]
  | aggregate child ih =>
    obtain ⟨hbare, hc⟩ := ht
    unfold anew
    rw [ih hc, hbare]

/-- Of a well-formed tree with named scans, there is a new one. It is closed, has the columns of the
old one, and is known by the same profile. -/
theorem anew_of_named (hwell : t.WellFormed store)
    (hnamed : t.Leaves (fun _ => True) (Scan.Named store)) :
    ∃ new, t.anew store = .ok new ∧ new.AllClosed ∧ Cursor.schema new = Cursor.schema t ∧
      new.profile store = t.profile store := by
  induction shape with
  | materialized => exact ⟨_, rfl, rfl, rfl, rfl⟩
  | scan =>
    have hmake := Scan.make_of_named hnamed
    refine ⟨Scan.close t, ?_, rfl, rfl, rfl⟩
    unfold anew
    rw [hmake]
    rfl
  | sealed inner ih =>
    obtain ⟨new, hnew, hclosed, hschema, hprofile⟩ := ih hwell hnamed
    refine ⟨Sealed.mk new, ?_, hclosed, hschema, congrArg Sealed.profile hprofile⟩
    unfold anew
    rw [hnew]
    rfl
  | join left right ihl ihr =>
    obtain ⟨hset, hl, hr⟩ := hwell
    obtain ⟨newl, hnewl, hcl, hsl, hpl⟩ := ihl hl hnamed.1
    obtain ⟨newr, hnewr, hcr, hsr, hpr⟩ := ihr hr hnamed.2
    rw [← hsl, ← hsr] at hset
    obtain ⟨new, hnew, rfl, rfl, hpending, hbare⟩ := Join.anew_of_wellSet hset
    have hbare' : Join.bare new = Join.bare t := hbare
    refine ⟨new, ?_, ⟨hpending, hcl, hcr⟩, (congrArg Join.schema hbare' : _), ?_⟩
    · unfold anew
      rw [hnewl, hnewr]
      exact hnew
    · show Join.profile (Join.bare new) (profile store new.left) (profile store new.right) =
        Join.profile (Join.bare t) _ _
      rw [hbare', hpl, hpr]
  | aggregate child ih =>
    obtain ⟨hset, hc⟩ := hwell
    obtain ⟨new, hnew, hclosed, hschema, hprofile⟩ := ih hc hnamed
    rw [← hschema] at hset
    refine ⟨({ Aggregate.bare t with child := new, run := none } : Aggregate (Node child)), ?_,
      ⟨rfl, hclosed⟩, rfl, ?_⟩
    · unfold anew
      rw [hnew]
      exact Aggregate.make_of_wellSet hset
    · show Aggregate.profile (Aggregate.bare t) (new.profile store) = Aggregate.profile _ _
      rw [hprofile]

end Node

namespace Stream

variable {store : PageStore}

/-- Closing a tree forgets everything. Whatever has been asked of a tree, with whatever success, and
whatever has become of the store meanwhile, there is a tree that can be built in its place now, which
is the same whatever is asked of the old one; and closing the old tree and opening it does what opening
the new tree does: it fails in the same way or succeeds, and the same rows follow, or the same failure
among them. -/
theorem start_close_anew [Join.Sorting] [Grouping.Listing] {s : Stream} (hstore : store.Reached)
    (h : s.Built store) :
    ∃ new, s.node.anew store = .ok new ∧
      (∀ (store' : PageStore) (request : Request),
        (request.perform store' s.node).state.anew store = .ok new) ∧
      (Cursor.start store (Cursor.close s.node)).result = (Cursor.start store new).result ∧
      (Cursor.collect store (Cursor.close s.node)).result = (Cursor.collect store new).result := by
  have hwell := wellFormed_of_built h
  have hholds := Node.profile_holds (PageStore.sound_of_reached hstore) hwell
  obtain ⟨new, hnew, hclosed, -, hprofile⟩ := Node.anew_of_named hwell (named_of_built h)
  -- both trees are closed states of the same profile
  have hold : (s.node.profile store).closed (Cursor.close s.node) :=
    hholds.close (Node.own_self store s.node)
  have hfresh : (s.node.profile store).closed new := by
    rw [← hprofile]
    exact Node.closed_self store hclosed
  refine ⟨new, hnew, ?_, ?_, ?_⟩
  · intro store' request
    rw [Node.anew_of_own (Node.own_perform request hwell)]
    exact hnew
  · rw [hholds.start_result hold, hholds.start_result hfresh]
  · rw [hholds.collect hold, hholds.collect hfresh]

/-- A join was given a left side that was open and of which a row was taken. The tree in its place has
a left side that is closed, and the two have the same rows when the join is closed and both are
opened. -/
theorem start_close_anew_of_open_side :
    let store := PageStore.empty 64
    let opened := ((column [some 1, some 2]).perform store .start).2
    let left := (opened.perform store .next).2
    left.node.isOpen = true ∧ ∃ s new, Stream.join {} 0 ⟨0, .eq, 0⟩ left (column [some 2]) = .ok s ∧
      s.node.anew store = .ok new ∧ new.AllClosed ∧
      (Cursor.collect store (Cursor.close s.node)).result = (Cursor.collect store new).result := by
  intro store opened left
  have hleft : left.Built store := .call .next (.call .start (built_column store _))
  obtain ⟨s, hs⟩ : ∃ s, Stream.join {} 0 ⟨0, .eq, 0⟩ left (column [some 2]) = .ok s := ⟨_, rfl⟩
  have hbuilt := Built.join hleft (built_column store _) hs
  obtain ⟨new, hnew, -, -, hcollect⟩ := start_close_anew (.empty 64) hbuilt
  have hclosed : ∀ new, s.node.anew store = .ok new → new.AllClosed := by
    cases hs
    rintro _ ⟨⟩
    exact ⟨rfl, rfl, rfl⟩
  exact ⟨rfl, s, new, hs, hnew, hclosed new hnew, hcollect⟩

end Stream

end RowStream
