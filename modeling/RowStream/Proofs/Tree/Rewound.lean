import RowStream.Proofs.Stream.Reread
import RowStream.Proofs.Tree.Recalls
import RowStream.Proofs.Tree.Reopen

/-!
# `RowStream.Proofs.Tree.Rewound` — going back, seen from outside

There are two sides to a rewind. A tree without aggregates does what closing and opening it again
would do, whatever has happened since it was opened. A tree with aggregates still has their old
groups, so it can be compared with its opening only where all else is as it was then; but then it
gives what it gave, wherever it stood and whatever happened meanwhile.

## Contents
- `Holds.recollect` — going back and reading all rows gives what starting and reading them gave.
- `Node.Since` — what can happen to an open tree before it is opened again.
- `Node.recalls_perform`, `Node.recalls_since` — one call, and everything that happens.
- `Node.rewind_restarts` — both sides of a rewind.
-/

namespace RowStream

open Call

/-- Where an open stream is as its profile says, going back succeeds, and what is read then is what is
read after a start. -/
theorem Profile.Holds.recollect {σ : Type} [Cursor σ] {store : PageStore} {P : Profile σ}
    (h : P.Holds store) {full : Script} (hfull : P.opening = .ok full) {s : σ}
    (hs : Cursor.Playing P.shows s) :
    (Cursor.rewind store s).result = .ok () ∧
      (Cursor.recollect store s).result = P.opening >>= Script.drain := by
  obtain ⟨script, hshows⟩ := hs
  have hplays := h.plays hfull
  obtain ⟨hres, hst⟩ := hplays.rewind hshows
  refine ⟨hres, ?_⟩
  unfold Cursor.recollect
  rw [bind_of_ok hres, hfull]
  exact (hplays.tells.drain hst).1

namespace Node

/-- What can come of a tree that was just opened as `t₁`, over the store `store₁`, before it is opened
again. -/
inductive Since [Join.Sorting] [Grouping.Listing] {shape : Shape} (store₁ : PageStore)
    (t₁ : Node shape) :
    PageStore → Node shape → Prop where
  /-- Nothing has happened yet. -/
  | opened : Since store₁ t₁ store₁ t₁
  /-- A call, which may fail, but not a start that succeeds; the store counts the pages that are
  read. -/
  | call {store : PageStore} {t : Node shape} (request : Request) :
    Since store₁ t₁ store t →
    (request = .start → ∀ a, (request.perform store t).result ≠ .ok a) →
      Since store₁ t₁ (store.countReads (request.perform store t).reads)
        (request.perform store t).state
  /-- A row that is stored, a page that becomes unreadable, or another step of the store. -/
  | elapse {store store' : PageStore} {t : Node shape} :
    Since store₁ t₁ store t → store.Step store' → Since store₁ t₁ store' t
  /-- Other strategies, and bytes that others take from the accounts or give back. -/
  | retune {store : PageStore} {t t' : Node shape} :
    Since store₁ t₁ store t → t.Retuned t' → Since store₁ t₁ store t'

variable {store store₀ store₁ : PageStore} {shape : Shape} {t₀ t₁ t : Node shape}

/-- One call on an open tree: it recalls its opening also after that, or all of it is closed. -/
theorem recalls_perform [Join.Sorting] [Grouping.Listing] (hstore : store.Sound)
    (hwell : t₀.WellFormed store) (request : Request) (h : Recalls store₀ t₀ t) :
    Recalls store₀ t₀ (request.perform store t).state ∨ (request.perform store t).state.AllClosed := by
  have hretains := retains hstore store₀ hwell
  have hwhole := together store shape
  have hrefused : ∀ t : Node shape, Recalls store₀ t₀ t → Refuses store Cursor.start .alreadyOpen t := by
    intro t ht
    apply (guarded store shape).start
    apply isOpen_of_allOpen
    exact allOpen_of_ready (ready_of_recalls ht)
  refine request.perform_leads (Q := fun t => Recalls store₀ t₀ t ∨ t.AllClosed) ?_ ?_ ?_ ?_ ?_ h
  · exact (Refuses.triple hrefused).imp (fun _ => id) (fun _ _ => False.elim) (fun _ _ => .inl)
  · exact hretains.hasNext.imp (fun _ => id) (fun _ _ => .inl) (fun _ _ => .inl)
  · exact hretains.next.imp (fun _ => id) (fun _ _ => .inl) (fun _ _ => .inl)
  · -- only a rewind that fails loses what is recalled, and it closes all
    apply Triple.intro
    · intro t a ht ha
      exact .inl (hretains.rewind.of_ok ht ha)
    · intro t e ht he
      exact .inr (hwhole.rewind.of_error (ready_of_recalls ht) he).2
  · exact fun t _ => .inr (hwhole.close t)

/-- Whatever happens to a tree that was just opened, it recalls that until it is closed. -/
theorem recalls_since [Join.Sorting] [Grouping.Listing] (hstore : store₁.Sound)
    (hwell : t₀.WellFormed store₁) (hopened : Recalls store₀ t₀ t₁) (h : Since store₁ t₁ store t) :
    store.Sound ∧ t₀.WellFormed store ∧ (Recalls store₀ t₀ t ∨ t.AllClosed) := by
  induction h with
  | opened => exact ⟨hstore, hwell, .inl hopened⟩
  | @call store t request _ hfails ih =>
    obtain ⟨hsound, hwell, ht⟩ := ih
    have hstep := PageStore.Step.countReads store (request.perform store t).reads
    refine ⟨hstep.sound hsound, wellFormed_of_step hstep hwell, ?_⟩
    rcases ht with hrecalls | hclosed
    · exact recalls_perform hsound hwell request hrecalls
    · exact .inr (perform_stays_closed request hclosed hfails)
  | elapse _ hstep ih =>
    obtain ⟨hsound, hwell, ht⟩ := ih
    exact ⟨hstep.sound hsound, wellFormed_of_step hstep hwell, ht⟩
  | retune _ hretuned ih =>
    obtain ⟨hsound, hwell, ht⟩ := ih
    refine ⟨hsound, hwell, ?_⟩
    rcases ht with hrecalls | hclosed
    · exact .inl (recalls_of_retuned hrecalls hretuned)
    · exact .inr (allClosed_of_retuned hclosed hretuned)

/-- A tree without aggregates goes back as if it were closed and opened again, wherever it stands and
whatever the store and its joins are now. -/
theorem rewind_eq_start [Join.Sorting] [Grouping.Listing] (store : PageStore)
    (hfree : shape.AggregateFree) (hopen : t.AllOpen) :
    Cursor.rewind store t = Cursor.start store (Cursor.close t) ∧
      Cursor.recollect store t = Cursor.collect store (Cursor.close t) ∧
      ∀ e, (Cursor.rewind store t).result = .error e → (Cursor.rewind store t).state.AllClosed := by
  have hwhole := together store shape
  have hrewind := (reopens store hfree).rewind_eq hopen
  refine ⟨hrewind, ?_, ?_⟩
  · unfold Cursor.recollect Cursor.collect
    exact bind_congr hrewind fun _ => Cursor.drain
  · intro e he
    rw [hrewind] at he ⊢
    exact (hwhole.start.of_error (hwhole.close t) he).2

/-- Going back starts a tree anew. Without aggregates, every open tree does what closing and opening
it again would do, over any store and with any strategies and accounts: if that fails, the rewind
fails in the same way and all is closed, and if it succeeds, the same rows follow. With aggregates, a
tree that was opened and is still open, whatever has happened to it, to the store and to its joins
since then, can be sent back as soon as the store, the strategies and what others hold of the
accounts are as they were; and then the rows are those that followed the opening. -/
theorem rewind_restarts [Join.Sorting] [Grouping.Listing] :
    (∀ (store : PageStore) {shape : Shape} {t : Node shape}, shape.AggregateFree → t.AllOpen →
      Cursor.rewind store t = Cursor.start store (Cursor.close t) ∧
        Cursor.recollect store t = Cursor.collect store (Cursor.close t) ∧
        ∀ e, (Cursor.rewind store t).result = .error e →
          (Cursor.rewind store t).state.AllClosed) ∧
    ∀ {store₀ : PageStore} {s : Stream}, store₀.Reached → s.Built store₀ →
      (Cursor.start store₀ s.node).result = .ok () →
      ∀ {store : PageStore} {t : Node s.shape},
        Since (store₀.countReads (Cursor.start store₀ s.node).reads)
          (Cursor.start store₀ s.node).state store t → t.isOpen →
        t.AllOpen ∧ (store₀.ReadsLike store → SetAs s.node t →
          (Cursor.rewind store t).result = .ok () ∧
            (Cursor.recollect store t).result = (Cursor.collect store₀ s.node).result) := by
  refine ⟨fun store _ _ hfree hopen => rewind_eq_start store hfree hopen, ?_⟩
  intro store₀ s hreached hs hstart store t hsince hisOpen
  have hsound := PageStore.sound_of_reached hreached
  have hwell := Stream.wellFormed_of_built hs
  have hholds := profile_holds hsound hwell
  -- the start found all closed and led to the script of the opening
  have hclosed := ((hholds.start_own (own_self store₀ s.node)).of_ok rfl hstart).1
  obtain ⟨full, hfull, hshows⟩ := hholds.start.of_ok hclosed hstart
  have hstep := PageStore.Step.countReads store₀ (Cursor.start store₀ s.node).reads
  obtain ⟨hsound', hwell', ht⟩ := recalls_since (hstep.sound hsound)
    (wellFormed_of_step hstep hwell) (recalls_of_shows hshows) hsince
  rcases ht with hrecalls | hshut
  · refine ⟨allOpen_of_ready (ready_of_recalls hrecalls), ?_⟩
    intro hlike hset
    -- the profile is that of the opening, and it holds now
    have hnow : (s.node.profile store₀).Holds store := by
      rw [← profile_congr hlike]
      exact profile_holds hsound' hwell'
    have hafter := hnow.recollect hfull (playing_of_recalls hrecalls hset)
    exact ⟨hafter.1, hafter.2.trans (hholds.collect hclosed).symm⟩
  · rw [not_isOpen_of_allClosed hshut] at hisOpen
    cases hisOpen

/-- An open join of two columns that has since been told to look up its rows in a table of values,
which does not find ranges. -/
def rangeByHash : Node (.join .materialized .materialized) :=
  ({ predicate := ⟨0, .lt, 0⟩, schema := .ofTypes [.int, .int], strategy := .hash
     bufferBytes := 64, budget := { account := 0, capacity := 128 }
     left := { schema := .ofTypes [.int], rows := Stream.columnRows [some 1], pending := some [] }
     right := { schema := .ofTypes [.int], rows := Stream.columnRows [some 2], pending := some [] }
     pending := some [] } : Join Materialized Materialized)

/-- That join can neither be sent back nor be closed and opened again. A sum of which the only row is
taken gives that row again. -/
theorem rewind_restarts_of_columns :
    ((Cursor.start (PageStore.empty 64) (Cursor.close rangeByHash)).result =
        .error (.setting (.hashNeedsEquality .lt)) ∧
      (Cursor.rewind (PageStore.empty 64) rangeByHash).result =
        .error (.setting (.hashNeedsEquality .lt)) ∧
      (Cursor.rewind (PageStore.empty 64) rangeByHash).state.AllClosed) ∧
    ∃ (s : Stream) (store : PageStore) (t : Node s.shape) (row : Row),
      Stream.aggregate (Stream.column [some 4, none, some 5]) 0 none .sum = .ok s ∧
      Since ((PageStore.empty 64).countReads (Cursor.start (PageStore.empty 64) s.node).reads)
        (Cursor.start (PageStore.empty 64) s.node).state store t ∧
      row.cells = [some (.int 9)] ∧ (Cursor.rewind store t).result = .ok () ∧
      (Cursor.recollect store t).result = .ok [row] := by
  constructor
  · have hfree : (Shape.join .materialized .materialized).AggregateFree := ⟨trivial, trivial⟩
    have hopen : rangeByHash.AllOpen := ⟨rfl, rfl, rfl⟩
    have hfails : (Cursor.start (PageStore.empty 64) (Cursor.close rangeByHash)).result =
        .error (.setting (.hashNeedsEquality .lt)) := rfl
    obtain ⟨heq, -, hclosed⟩ := rewind_restarts.1 (PageStore.empty 64) hfree hopen
    have hrewind := (congrArg Outcome.result heq).trans hfails
    exact ⟨hfails, hrewind, hclosed _ hrewind⟩
  · -- the sum is closed, opens with one row, and has no joins
    have hfacts : ∀ s, Stream.aggregate (Stream.column [some 4, none, some 5]) 0 none .sum = .ok s →
        s.node.AllClosed ∧ (∀ t, SetAs s.node t) ∧ ∃ row : Row,
          (s.node.profile (PageStore.empty 64)).opening = .ok ⟨[row], none⟩ ∧
            row.cells = [some (.int 9)] := by
      rintro _ ⟨⟩
      exact ⟨⟨rfl, rfl⟩, fun _ => trivial, _, rfl, rfl⟩
    obtain ⟨s, hsum⟩ : ∃ s, Stream.aggregate (Stream.column [some 4, none, some 5]) 0 none .sum =
        .ok s := ⟨_, rfl⟩
    obtain ⟨hshut, hset, row, hopening, hrow⟩ := hfacts s hsum
    have hreached := PageStore.Reached.empty 64
    have hbuilt := Stream.Built.aggregate (Stream.built_column (PageStore.empty 64) _) hsum
    have hholds := profile_holds (PageStore.sound_of_reached hreached)
      (Stream.wellFormed_of_built hbuilt)
    have hclosed := closed_self (PageStore.empty 64) hshut
    have hstart := hholds.start_of_opening hclosed hopening
    have hready := (together (PageStore.empty 64) s.shape).start.of_ok hshut hstart
    -- taking the row leaves the sum open
    have hnext : ∀ (store₁ : PageStore) (t₁ : Node s.shape), Since store₁ t₁
        (store₁.countReads (Request.next.perform store₁ t₁).reads)
        (Request.next.perform store₁ t₁).state := by
      intro store₁ t₁
      apply Since.call Request.next Since.opened
      intro h
      cases h
    have hisOpen : ∀ (store₁ : PageStore) {t₁ : Node s.shape}, t₁.Ready →
        (Request.next.perform store₁ t₁).state.isOpen := by
      intro store₁ t₁ ht₁
      apply isOpen_of_allOpen
      apply allOpen_of_ready
      have hwhole := together store₁ s.shape
      rw [(Request.perform_next store₁ t₁).2]
      cases hres : (Cursor.next store₁ t₁).result with
      | ok row => exact hwhole.next.of_ok ht₁ hres
      | error e => exact (hwhole.next.of_error ht₁ hres).2
    obtain ⟨-, hback⟩ := rewind_restarts.2 hreached hbuilt hstart (hnext _ _) (hisOpen _ hready)
    obtain ⟨hrewind, hrows⟩ := hback ((PageStore.readsLike_countReads _ _).trans
      (PageStore.readsLike_countReads _ _)) (hset _)
    have hcollect := hholds.collect_of_opening hclosed hopening
    exact ⟨s, _, _, row, hsum, hnext _ _, hrow, hrewind, hrows.trans hcollect⟩

end Node

end RowStream
