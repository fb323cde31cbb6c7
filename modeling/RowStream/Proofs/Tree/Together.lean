import RowStream.Proofs.Aggregate.Together
import RowStream.Proofs.Join.Together
import RowStream.Proofs.Tree.Built

/-!
# `RowStream.Proofs.Tree.Together` — no tree is ever half open

A tree that begins with all its nodes closed has, after every call, all of them open or all of them
closed, whatever the calls are, and whatever becomes of the store and of the accounts between them.

## Contents
- `Stream.Happens`, `Stream.Reaches` — what can happen to a tree, and what that leads to.
- `Node.Ready` — an open tree that can be sent back.
- `Node.together` — every tree opens and closes as a whole.
- `Stream.together_of_reaches` — it does so whatever happens.
-/

namespace RowStream

open Call

namespace Stream

variable [Join.Sorting] [Grouping.Listing]

/-- What can happen to a store and a tree over it. -/
inductive Happens : PageStore → Stream → PageStore → Stream → Prop where
  /-- A call, which may fail; the store counts the pages that are read. -/
  | call {store : PageStore} {s : Stream} (request : Request) :
    Happens store s (s.run request.perform store).2.2 (s.run request.perform store).2.1
  /-- A row that is stored, a page that becomes unreadable, or another step of the store. -/
  | elapse {store store' : PageStore} {s : Stream} : store.Step store' → Happens store s store' s
  /-- Something that others do to the accounts. -/
  | share {store : PageStore} {s : Stream} (f : Budget → Budget) :
    Happens store s store { s with node := s.node.mapBudgets f }

/-- Giving a reservation back is one of the things that others do to the accounts. -/
theorem Happens.release (store : PageStore) (s : Stream) (r : Reservation) :
    Happens store s store (s.release r) := by
  unfold Stream.release
  rw [Node.release_eq_mapBudgets]
  exact share (Budget.release · r)

/-- What a store and a tree can come to. -/
inductive Reaches (store : PageStore) (s : Stream) : PageStore → Stream → Prop where
  /-- Nothing happens. -/
  | refl : Reaches store s store s
  /-- One thing happens after others. -/
  | tail {store' store'' : PageStore} {s' s'' : Stream} :
    Reaches store s store' s' → Happens store' s' store'' s'' → Reaches store s store'' s''

end Stream

namespace Node

variable {store : PageStore} [Join.Sorting] [Grouping.Listing]

/-- Every node is open, and the aggregates have rows for their groups. -/
def Ready : {shape : Shape} → Node shape → Prop
  | .materialized, s => Option.isSome (Materialized.pending s)
  | .scan, s => Option.isSome (Scan.position s)
  | .sealed _, s => Ready (Sealed.inner s)
  | .join _ _, j => Join.Opened Ready Ready j
  | .aggregate _, a => Aggregate.Opened Ready a

/-- Every tree opens and closes as a whole. -/
theorem together (store : PageStore) (shape : Shape) :
    Cursor.Together store (Ready : Node shape → Prop) AllClosed := by
  induction shape with
  | materialized => exact Materialized.together store
  | scan => exact Scan.together store
  | sealed inner ih => exact Sealed.together ih
  | join left right ihl ihr => exact Join.together ihl ihr
  | aggregate child ih => exact Aggregate.together ih

/-- Every tree refuses the calls that do not fit its outermost node. -/
theorem guarded (store : PageStore) (shape : Shape) :
    Cursor.Guarded store (isOpen : Node shape → Bool) := by
  induction shape with
  | materialized => exact Materialized.guarded
  | scan => exact Scan.guarded
  | sealed inner ih => exact Sealed.guarded ih
  | join left right => exact Join.guarded
  | aggregate child => exact Aggregate.guarded

omit [Join.Sorting] in
theorem allOpen_of_ready {shape : Shape} {t : Node shape} (h : t.Ready) : t.AllOpen := by
  induction shape with
  | materialized => exact h
  | scan => exact h
  | sealed inner ih => exact ih h
  | join left right ihl ihr => exact ⟨h.1, ihl h.2.1, ihr h.2.2⟩
  | aggregate child ih =>
    obtain ⟨⟨run, rows, hrun, -⟩, hc⟩ := h
    exact ⟨Option.isSome_iff_exists.2 ⟨run, hrun⟩, ih hc⟩

omit [Join.Sorting] in
theorem ready_mapBudgets (f : Budget → Budget) {shape : Shape} {t : Node shape} (h : t.Ready) :
    (t.mapBudgets f).Ready := by
  induction shape with
  | materialized => exact h
  | scan => exact h
  | sealed inner ih => exact ih h
  | join left right ihl ihr => exact ⟨h.1, ihl h.2.1, ihr h.2.2⟩
  | aggregate child ih => exact ⟨h.1, ih h.2⟩

omit [Join.Sorting] [Grouping.Listing] in
theorem allClosed_mapBudgets (f : Budget → Budget) {shape : Shape} {t : Node shape}
    (h : t.AllClosed) : (t.mapBudgets f).AllClosed := by
  induction shape with
  | materialized => exact h
  | scan => exact h
  | sealed inner ih => exact ih h
  | join left right ihl ihr => exact ⟨h.1, ihl h.2.1, ihr h.2.2⟩
  | aggregate child ih => exact ⟨h.1, ih h.2⟩

section Calls

variable {shape : Shape} {t : Node shape}

/-- A start of a closed tree that fails leaves it closed, and does not fail because it is open. -/
theorem start_fails (h : t.AllClosed) {e : StreamError}
    (he : (Request.start.perform store t).result = .error e) :
    e.isUsage = false ∧ (Request.start.perform store t).state.AllClosed := by
  obtain ⟨hr, hst⟩ := Request.perform_start store t
  rw [hst]
  cases hres : (Cursor.start store t).result with
  | ok u => simp [hr, hres, Except.map] at he
  | error cause =>
    rw [hr, hres] at he
    cases he
    exact (together store shape).start.of_error h hres

/-- If an open tree cannot be sent back, all of it is closed. -/
theorem rewind_fails (h : t.Ready) {e : StreamError}
    (he : (Request.rewind.perform store t).result = .error e) :
    (Request.rewind.perform store t).state.AllClosed := by
  obtain ⟨hr, hst⟩ := Request.perform_rewind store t
  rw [hst]
  cases hres : (Cursor.rewind store t).result with
  | ok u => simp [hr, hres, Except.map] at he
  | error cause => exact ((together store shape).rewind.of_error h hres).2

/-- A closed tree has no rows to look for. -/
theorem hasNext_closed (h : t.AllClosed) :
    ∃ kind, (Request.hasNext.perform store t).result = .error (.usage (.notOpen kind)) := by
  have hrefused : Refuses store Request.hasNext.perform .notOpen t :=
    ((guarded store shape).hasNext (not_isOpen_of_allClosed h)).map _
  obtain ⟨kind, hres, -⟩ := hrefused
  exact ⟨kind, hres⟩

/-- A call on an open tree leaves all of it open, or closes all of it. -/
theorem perform_ready (request : Request) (h : t.Ready) :
    (request.perform store t).state.Ready ∨ (request.perform store t).state.AllClosed := by
  have hwhole := together store shape
  have hrefused : ∀ t : Node shape, t.Ready → Refuses store Cursor.start .alreadyOpen t :=
    fun t ht => (guarded store shape).start (isOpen_of_allOpen (allOpen_of_ready ht))
  refine request.perform_leads (Q := fun t => t.Ready ∨ t.AllClosed) ?_ ?_ ?_ ?_ ?_ h
  · exact (Refuses.triple hrefused).imp (fun _ => id) (fun _ _ => False.elim) (fun _ _ => .inl)
  · exact hwhole.hasNext.imp (fun _ => id) (fun _ _ => .inl) (fun _ _ he => .inl he.2)
  · exact hwhole.next.imp (fun _ => id) (fun _ _ => .inl) (fun _ _ he => .inl he.2)
  · exact hwhole.rewind.imp (fun _ => id) (fun _ _ => .inl) (fun _ _ he => .inr he.2)
  · exact fun t _ => .inr (hwhole.close t)

/-- A call on a closed tree leaves it closed, unless it is a start that succeeds. -/
theorem perform_stays_closed (request : Request) (h : t.AllClosed)
    (hfails : request = .start → ∀ a, (request.perform store t).result ≠ .ok a) :
    (request.perform store t).state.AllClosed := by
  have hguarded := guarded store shape
  have hclosed := not_isOpen_of_allClosed h
  -- what is refused leaves the tree as it is
  have hrefused : Refuses store request.perform .notOpen t →
      (request.perform store t).state.AllClosed := by
    rintro ⟨kind, -, hst⟩
    rw [hst]
    exact h
  cases request with
  | start =>
    cases hres : (Request.start.perform store t).result with
    | ok a => exact absurd hres (hfails rfl a)
    | error e => exact (start_fails h hres).2
  | hasNext => exact hrefused ((hguarded.hasNext hclosed).map _)
  | next => exact hrefused ((hguarded.next hclosed).map _)
  | rewind => exact hrefused ((hguarded.rewind hclosed).map _)
  | close => exact (together store shape).close t

/-- A call on a closed tree opens all of it or leaves it closed. -/
theorem perform_closed (request : Request) (h : t.AllClosed) :
    (request.perform store t).state.Ready ∨ (request.perform store t).state.AllClosed := by
  by_cases hopens : request = .start ∧ ∃ a, (request.perform store t).result = .ok a
  · obtain ⟨rfl, a, ha⟩ := hopens
    obtain ⟨hr, hst⟩ := Request.perform_start store t
    rw [hst]
    cases hres : (Cursor.start store t).result with
    | ok u => exact .inl ((together store shape).start.of_ok h hres)
    | error e =>
      rw [hr, hres] at ha
      cases ha
  · right
    apply perform_stays_closed request h
    intro hstart a ha
    exact hopens ⟨hstart, a, ha⟩

end Calls

end Node

namespace Stream

variable {store store' : PageStore} {s s' : Stream}

/-- The join of two closed trees is closed throughout. -/
theorem allClosed_join [Join.Sorting] [Grouping.Listing] {config : Config} {account : Nat}
    {p : Predicate} {left right s : Stream} (h : Stream.join config account p left right = .ok s)
    (hl : left.node.AllClosed) (hr : right.node.AllClosed) : s.node.AllClosed := by
  unfold Stream.join at h
  cases hj : Join.make config account p left.node right.node with
  | error e => simp [hj, bind, Except.bind] at h
  | ok j =>
    simp only [hj, bind, Except.bind, pure, Except.pure, Except.ok.injEq] at h
    subst h
    obtain ⟨-, -, rfl⟩ := Join.of_make hj
    exact ⟨rfl, hl, hr⟩

/-- Whatever happens to a tree that is ready or closed, it is so afterwards. -/
theorem Happens.ready_or_closed [Join.Sorting] [Grouping.Listing] (h : Happens store s store' s')
    (hs : s.node.Ready ∨ s.node.AllClosed) : s'.node.Ready ∨ s'.node.AllClosed := by
  cases h with
  | call request =>
    rcases hs with hready | hclosed
    · exact Node.perform_ready request hready
    · exact Node.perform_closed request hclosed
  | elapse _ => exact hs
  | share f =>
    exact hs.imp (Node.ready_mapBudgets f) (Node.allClosed_mapBudgets f)

theorem Reaches.ready_or_closed [Join.Sorting] [Grouping.Listing] (h : Reaches store s store' s')
    (hs : s.node.Ready ∨ s.node.AllClosed) : s'.node.Ready ∨ s'.node.AllClosed := by
  induction h with
  | refl => exact hs
  | tail _ hstep ih => exact hstep.ready_or_closed ih

/-- Whatever happens to a tree that begins with all nodes closed, all of them are open or all of them
are closed. A start of a closed tree that fails leaves it closed, and never fails because something
is still open; a rewind of an open tree that fails closes it; and a closed tree, also one that could
not be opened, has no rows to look for. -/
theorem together_of_reaches [Join.Sorting] [Grouping.Listing] (hs : s.node.AllClosed)
    (h : Reaches store s store' s') :
    (s'.node.AllOpen ∨ s'.node.AllClosed) ∧
      (s'.node.AllClosed → ∀ e, (s'.run Request.start.perform store').1 = .error e →
        e.isUsage = false ∧ (s'.run Request.start.perform store').2.1.node.AllClosed) ∧
      (s'.node.AllOpen → ∀ e, (s'.run Request.rewind.perform store').1 = .error e →
        (s'.run Request.rewind.perform store').2.1.node.AllClosed) ∧
      (s'.node.AllClosed →
        ∃ kind, (s'.run Request.hasNext.perform store').1 = .error (.usage (.notOpen kind))) := by
  have hs' := h.ready_or_closed (.inr hs)
  refine ⟨hs'.imp Node.allOpen_of_ready id, fun hclosed e he => Node.start_fails hclosed he,
    fun hopen e he => ?_, fun hclosed => Node.hasNext_closed hclosed⟩
  rcases hs' with hready | hclosed
  · exact Node.rewind_fails hready he
  · have hisOpen := Node.isOpen_of_allOpen hopen
    rw [Node.not_isOpen_of_allClosed hclosed] at hisOpen
    cases hisOpen

/-- A table of values that is asked for a range does not open, and both sides are closed. -/
theorem together_of_hash :
    ∃ s, Stream.join { strategy := .hash } 0 ⟨0, .lt, 0⟩ (column [some 1]) (column [some 2]) = .ok s ∧
      (s.run Request.start.perform (PageStore.empty 64)).1 =
        .error (.setting (.hashNeedsEquality .lt)) ∧
      (s.run Request.start.perform (PageStore.empty 64)).2.1.node.AllClosed := by
  have hjoin : Stream.join { strategy := .hash } 0 ⟨0, .lt, 0⟩ (column [some 1]) (column [some 2]) =
      .ok _ := rfl
  have hclosed := allClosed_join hjoin rfl rfl
  exact ⟨_, hjoin, rfl, ((together_of_reaches hclosed .refl).2.1 hclosed _ rfl).2⟩

end Stream

end RowStream
