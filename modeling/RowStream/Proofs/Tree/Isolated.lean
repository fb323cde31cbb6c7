import RowStream.Proofs.Tree.Built

/-!
# `RowStream.Proofs.Tree.Isolated` — the rows of an open join or aggregate

An open join has found its rows, and an open aggregate its groups. Until the rows are to be found anew,
neither needs its children, which may be in the midst of scans of tables that go on changing, with
pages that can no longer be read. So those who read the rows cannot tell what becomes of the store, and
the store cannot tell that they do.

## Contents
- `Shape.ownCalls` — the calls that an open join or aggregate answers by itself.
- `Stream.Heard`, `Stream.Hears` — what is heard from a stream while the store changes.
- `Stream.replies` — what is heard if it never does.
- `recite` — the answers of one who has all rows at hand.
- `Node.AtHand`, `hasNext_atHand`, `next_atHand`, `rewind_atHand` — the calls on such a tree.
- `Node.start_atHand` — a start that succeeds has found the rows.
- `Stream.isolated` — the answers of an open join or aggregate.
-/

namespace RowStream

open Call

/-- The calls that an open tree answers from what it has found, without its children. -/
def Shape.ownCalls : Shape → List Request
  | .materialized => []
  | .scan => []
  | .sealed inner => ownCalls inner
  | .join _ _ => [.hasNext, .next]
  | .aggregate _ => [.hasNext, .next, .rewind]

/-- To start a tree or to close it, its children are needed. -/
theorem Shape.not_mem_ownCalls (shape : Shape) :
    .start ∉ shape.ownCalls ∧ .close ∉ shape.ownCalls := by
  induction shape with
  | materialized => simp [ownCalls]
  | scan => simp [ownCalls]
  | sealed inner ih => exact ih
  | join left right => simp [ownCalls]
  | aggregate child => simp [ownCalls]

namespace Stream

variable [Join.Sorting] [Grouping.Listing]

/-- A call, its answer, and the store before and after it. -/
structure Heard where
  /-- The call. -/
  request : Request
  /-- The answer. -/
  answer : Except StreamError Answer
  /-- The store before the call. -/
  before : PageStore
  /-- The store after the call, with the pages counted that were read for it. -/
  after : PageStore

/-- What can be heard from a stream to which only its own calls are made, while in between, at any
time, the store changes. -/
inductive Hears : PageStore → Stream → List Heard → Prop where
  /-- Nothing is asked any more. -/
  | done (store : PageStore) (s : Stream) : Hears store s []
  /-- A new table, a row that is stored, a page that becomes unreadable, or all that become readable. -/
  | elapse {store store' : PageStore} {s : Stream} {log : List Heard} :
    store.Step store' → Hears store' s log → Hears store s log
  /-- A call. -/
  | ask {store : PageStore} {s : Stream} {request : Request} {log : List Heard} :
    request ∈ s.shape.ownCalls →
    Hears (s.run request.perform store).2.2 (s.run request.perform store).2.1 log →
      Hears store s
        (⟨request, (s.run request.perform store).1, store, (s.run request.perform store).2.2⟩ :: log)

/-- The answers of a stream to the calls, one after the other, over a store that nobody else uses. -/
def replies (store : PageStore) (s : Stream) : List Request → List (Except StreamError Answer)
  | [] => []
  | request :: requests =>
    let o := s.run request.perform store
    o.1 :: replies o.2.2 o.2.1 requests

end Stream

/-- The answers of one who has all rows at hand and of whom `rest` are still to come. Starting and
closing ends that. -/
def recite (all : List Row) : List Row → List Request → List (Except StreamError Answer)
  | rest, .hasNext :: requests => .ok (.more !rest.isEmpty) :: recite all rest requests
  | row :: rest, .next :: requests => .ok (.row row) :: recite all rest requests
  | [], .next :: requests => .error .exhausted :: recite all [] requests
  | _, .rewind :: requests => .ok .done :: recite all all requests
  | _, _ => []

/-- One who has all rows at hand never says that the store refuses an access. -/
theorem ne_storage_of_recite (cause : StoreError) {all rest : List Row} {requests : List Request}
    {answer : Except StreamError Answer} (h : answer ∈ recite all rest requests) :
    answer ≠ .error (.storage cause) := by
  induction requests generalizing rest with
  | nil => simp [recite] at h
  | cons request requests ih =>
    have hcons : ∀ {first rest'}, first ≠ .error (.storage cause) →
        answer ∈ first :: recite all rest' requests → answer ≠ .error (.storage cause) := by
      intro first rest' hfirst hmem
      rcases List.mem_cons.1 hmem with rfl | hmem
      · exact hfirst
      · exact ih hmem
    cases request with
    | start => simp [recite] at h
    | close => simp [recite] at h
    | hasNext =>
      rw [recite] at h
      exact hcons (by simp) h
    | next =>
      cases rest with
      | nil =>
        rw [recite] at h
        exact hcons (by simp) h
      | cons row rest =>
        rw [recite] at h
        exact hcons (by simp) h
    | rewind =>
      rw [recite] at h
      exact hcons (by simp) h

namespace Node

variable [Join.Sorting] [Grouping.Listing]

/-! ## Trees with their rows at hand -/

/-- The tree is open and has found the rows of `all`, of which `rest` are still to come. -/
def AtHand (all rest : List Row) : {shape : Shape} → Node shape → Prop
  | .materialized, _ => False
  | .scan, _ => False
  | .sealed _, s => AtHand all rest (Sealed.inner s)
  | .join _ _, j => Join.pending j = some rest
  | .aggregate _, a => ∃ groups, Aggregate.run a = some ⟨groups, rest⟩ ∧
      groups.rows (Aggregate.schema a) = .ok all

variable {shape : Shape} {t : Node shape} {all rest : List Row}

/-- Looking for a row looks at the rows at hand, over whatever store, and reads no page. -/
theorem hasNext_atHand (store : PageStore) (h : t.AtHand all rest) :
    Cursor.hasNext store t = { result := .ok !rest.isEmpty, state := t } := by
  induction shape with
  | materialized => exact h.elim
  | scan => exact h.elim
  | sealed inner ih =>
    have hinner := ih (t := Sealed.inner t) h
    show Sealed.onInner Cursor.hasNext store t = _
    unfold Sealed.onInner Call.zoom
    rw [hinner]
    rfl
  | join left right =>
    show Join.hasNext store t = _
    unfold Join.hasNext
    simp only [bind, Call.bind, Call.get, Call.ofExcept]
    rw [(show Join.pending t = some rest from h)]
    rfl
  | aggregate child =>
    obtain ⟨groups, hrun, -⟩ := h
    show Aggregate.hasNext store t = _
    unfold Aggregate.hasNext Aggregate.pending
    simp only [bind, Call.bind, Call.get, Call.ofExcept]
    rw [hrun]
    rfl

/-- Taking a row takes it from the rows at hand. -/
theorem next_atHand (store : PageStore) (h : t.AtHand all rest) :
    ∃ t', Cursor.next store t = { result := Script.next ⟨rest, none⟩, state := t' } ∧
      t'.AtHand all rest.tail := by
  induction shape with
  | materialized => exact h.elim
  | scan => exact h.elim
  | sealed inner ih =>
    obtain ⟨t', hinner, ht'⟩ := ih (t := Sealed.inner t) h
    refine ⟨Sealed.mk t', ?_, ht'⟩
    show Sealed.onInner Cursor.next store t = _
    unfold Sealed.onInner Call.zoom
    rw [hinner]
    rfl
  | join left right => exact ⟨_, Join.next_of_pending store h, rfl⟩
  | aggregate child =>
    obtain ⟨groups, hrun, hrows⟩ := h
    exact ⟨_, Aggregate.next_of_run store hrun, groups, rfl, hrows⟩

/-- An aggregate goes back to its first row by itself. -/
theorem rewind_atHand (store : PageStore) (hcall : .rewind ∈ shape.ownCalls)
    (h : t.AtHand all rest) :
    ∃ t', Cursor.rewind store t = { result := .ok (), state := t' } ∧ t'.AtHand all all := by
  induction shape with
  | materialized => exact h.elim
  | scan => exact h.elim
  | sealed inner ih =>
    obtain ⟨t', hinner, ht'⟩ := ih (t := Sealed.inner t) hcall h
    refine ⟨Sealed.mk t', ?_, ht'⟩
    show Sealed.onInner Cursor.rewind store t = _
    unfold Sealed.onInner Call.zoom
    rw [hinner]
    rfl
  | join left right => simp [Shape.ownCalls] at hcall
  | aggregate child =>
    obtain ⟨groups, hrun, hrows⟩ := h
    have hrewind := (Aggregate.rewind_of_run store hrun).trans
      (Aggregate.replay_of_ok (b := Aggregate.bare t) store rfl hrows)
    exact ⟨_, hrewind, groups, rfl, hrows⟩

/-- A start that succeeds has found all rows, and none is taken yet. -/
theorem start_atHand (store : PageStore) (hshape : shape.ownCalls ≠ []) :
    Triple store (fun _ : Node shape => True) Cursor.start (fun _ t => ∃ all, t.AtHand all all)
      (fun _ _ => True) := by
  induction shape with
  | materialized => exact absurd rfl hshape
  | scan => exact absurd rfl hshape
  | sealed inner ih =>
    show Triple store _ (Sealed.onInner Cursor.start) _ _
    apply Triple.zoom
    intro s _
    exact (ih hshape).imp (fun _ _ => trivial) (fun _ _ ht => ht) (fun _ _ _ => trivial)
  | join left right =>
    apply Triple.getBind
    intro j _
    by_cases hopen : Option.isSome (Join.pending j)
    · rw [if_pos hopen]
      exact Triple.fail fun _ _ => trivial
    rw [if_neg hopen]
    -- the last thing that a join does at a start is to keep the rows it has found
    apply Triple.bindAny
    intro _
    apply Triple.bindAny
    intro _
    apply Triple.bindAny
    intro rows
    apply Triple.modify
    intro j _
    exact ⟨rows, rfl⟩
  | aggregate child =>
    apply Triple.getBind
    intro a _
    by_cases hopen : Option.isSome (Aggregate.run a)
    · rw [if_pos hopen]
      exact Triple.fail fun _ _ => trivial
    rw [if_neg hopen]
    apply Triple.bindAny
    intro _
    apply Triple.onError
    apply Triple.bindAny
    intro groups
    -- the last thing that an aggregate does is to keep the groups, if they have rows
    apply Triple.getBind
    intro a _
    refine Triple.bind (R := fun all a' => a' = a ∧ groups.rows a.schema = .ok all)
      (Triple.ofExcept (fun _ _ ha hrows => ⟨ha, hrows⟩) fun _ _ _ _ => trivial) fun all => ?_
    apply Triple.modify
    rintro _ ⟨rfl, hrows⟩
    exact ⟨all, groups, rfl, hrows⟩

/-! ## What is heard -/

/-- The tree has found the rows of `all`, and the script is still to come. -/
def Reciting (all : List Row) (script : Script) (t : Node shape) : Prop :=
  script.failure = none ∧ t.AtHand all script.rows

/-- While its rows are at hand, a tree gives them. -/
theorem tells_atHand (store : PageStore) (all : List Row) :
    Cursor.Tells store (Reciting all : Script → Node shape → Prop) where
  hasNext := by
    rintro ⟨rows, _⟩ t ⟨rfl, ht⟩
    rw [hasNext_atHand store ht]
    cases rows <;> exact ⟨rfl, rfl, ht⟩
  next := by
    rintro ⟨rows, _⟩ t ⟨rfl, ht⟩
    obtain ⟨t', hnext, ht'⟩ := next_atHand store ht
    rw [hnext]
    exact ⟨rfl, rfl, ht'⟩

/-- A call that a tree answers by itself has the answer of one who has the rows at hand, and reads no
page. -/
theorem perform_atHand (store : PageStore) {request : Request} (hcall : request ∈ shape.ownCalls)
    (h : t.AtHand all rest) :
    ∃ answer t' rest', request.perform store t = { result := answer, state := t' } ∧
      t'.AtHand all rest' ∧
      ∀ requests, recite all rest (request :: requests) = answer :: recite all rest' requests := by
  cases request with
  | start => exact absurd hcall shape.not_mem_ownCalls.1
  | close => exact absurd hcall shape.not_mem_ownCalls.2
  | hasNext =>
    have hcall := bind_return_of_eq (g := Answer.more) (hasNext_atHand store h)
    refine ⟨_, t, rest, hcall, h, ?_⟩
    intro requests
    cases rest <;> rfl
  | next =>
    obtain ⟨t', hnext, ht'⟩ := next_atHand store h
    have hcall := bind_return_of_eq (g := Answer.row) hnext
    refine ⟨_, t', rest.tail, hcall, ht', ?_⟩
    intro requests
    cases rest <;> rfl
  | rewind =>
    obtain ⟨t', hrewind, ht'⟩ := rewind_atHand store hcall h
    have hcall := bind_return_of_eq (g := fun _ => Answer.done) hrewind
    refine ⟨_, t', all, hcall, ht', ?_⟩
    intro requests
    cases rest <;> rfl

end Node

namespace Stream

variable {store : PageStore} {all rest : List Row}

/-- A call that a tree answers by itself, as it is heard: the answer is that of one who has the rows at
hand, and the store is as it was. -/
theorem run_atHand [Join.Sorting] [Grouping.Listing] (store : PageStore) {s : Stream}
    {request : Request} (hcall : request ∈ s.shape.ownCalls) (h : s.node.AtHand all rest) :
    ∃ answer t' rest', s.run request.perform store = (answer, ⟨s.shape, t'⟩, store) ∧
      t'.AtHand all rest' ∧
      ∀ requests, recite all rest (request :: requests) = answer :: recite all rest' requests := by
  obtain ⟨answer, t', rest', hperform, ht', hrecite⟩ := Node.perform_atHand store hcall h
  refine ⟨answer, t', rest', ?_, ht', hrecite⟩
  let o := request.perform store s.node
  show (o.result, (⟨s.shape, o.state⟩ : Stream), store.countReads o.reads) = _
  rw [show o = _ from hperform]
  rfl

/-- Whatever becomes of the store in between, what is heard of a tree with its rows at hand is what one
would say who has them, and no call leaves a trace in the store. -/
theorem recites_of_hears [Join.Sorting] [Grouping.Listing] {s : Stream} {log : List Heard}
    (h : Hears store s log) (hs : s.node.AtHand all rest) :
    log.map Heard.answer = recite all rest (log.map Heard.request) ∧
      ∀ heard ∈ log, heard.after = heard.before := by
  induction h generalizing rest with
  | done => exact ⟨by simp [recite], by simp⟩
  | elapse _ _ ih => exact ih hs
  | @ask store s request log hcall _ ih =>
    obtain ⟨answer, t', rest', hrun, ht', hrecite⟩ := run_atHand store hcall hs
    rw [hrun] at ih ⊢
    obtain ⟨hanswers, hstores⟩ := ih ht'
    constructor
    · rw [List.map_cons, List.map_cons, hrecite, hanswers]
    · intro heard hheard
      rcases List.mem_cons.1 hheard with rfl | hheard
      · rfl
      · exact hstores heard hheard

/-- The same if nothing becomes of it. -/
theorem replies_of_atHand [Join.Sorting] [Grouping.Listing] (store : PageStore) {s : Stream}
    {requests : List Request} (hcalls : ∀ request ∈ requests, request ∈ s.shape.ownCalls)
    (hs : s.node.AtHand all rest) :
    s.replies store requests = recite all rest requests := by
  induction requests generalizing s rest with
  | nil => simp [replies, recite]
  | cons request requests ih =>
    obtain ⟨answer, t', rest', hrun, ht', hrecite⟩ :=
      run_atHand store (hcalls request List.mem_cons_self) hs
    rw [hrecite, replies, hrun]
    exact congrArg (answer :: ·)
      (ih (s := ⟨s.shape, t'⟩) (fun r hr => hcalls r (List.mem_cons_of_mem _ hr)) ht')

/-- Only calls that a tree answers by itself are heard. -/
theorem mem_ownCalls_of_hears [Join.Sorting] [Grouping.Listing] {s : Stream} {log : List Heard}
    (h : Hears store s log) :
    ∀ request ∈ log.map Heard.request, request ∈ s.shape.ownCalls := by
  induction h with
  | done => simp
  | elapse _ _ ih => exact ih
  | @ask store s request log hcall _ ih =>
    intro r hr
    rcases List.mem_cons.1 hr with rfl | hr
    · exact hcall
    · exact ih r hr

/-- Open results are apart from the store. Once a join or an aggregate over any trees is open, there
are rows, those that would be collected at this moment, such that, whatever is stored, created or made
unreadable between its calls, what is asked of it is answered from these rows. So the answers are
those over a store that does not change, no answer is that the store refuses an access, and no call
counts a page of any table. -/
theorem isolated [Join.Sorting] [Grouping.Listing] {s : Stream} (hshape : s.shape.ownCalls ≠ [])
    (hstart : (s.run Cursor.start store).1 = .ok ()) :
    let opened := s.run Cursor.start store
    ∃ all, (Cursor.collect store s.node).result = .ok all ∧
      ∀ {log : List Heard}, Hears opened.2.2 opened.2.1 log →
        log.map Heard.answer = recite all all (log.map Heard.request) ∧
          log.map Heard.answer =
            opened.2.1.replies opened.2.2 (log.map Heard.request) ∧
          ∀ heard ∈ log, (∀ cause, heard.answer ≠ .error (.storage cause)) ∧
            ∀ table, heard.after.pageReads table = heard.before.pageReads table := by
  intro opened
  have hok : (Cursor.start store s.node).result = .ok () := hstart
  obtain ⟨all, hall⟩ := (Node.start_atHand store hshape).of_ok trivial hok
  refine ⟨all, ?_, ?_⟩
  · have hshows : Node.Reciting all ⟨all, none⟩ (Cursor.start store s.node).state := ⟨rfl, hall⟩
    unfold Cursor.collect
    rw [bind_of_ok hok]
    exact ((Node.tells_atHand store all).drain hshows).1
  intro log hlog
  obtain ⟨hanswers, hstores⟩ := recites_of_hears hlog hall
  refine ⟨hanswers, ?_, ?_⟩
  · rw [hanswers]
    exact (replies_of_atHand _ (mem_ownCalls_of_hears hlog) hall).symm
  · intro heard hheard
    constructor
    · intro cause
      apply ne_storage_of_recite cause
      rw [← hanswers]
      exact List.mem_map_of_mem hheard
    · intro table
      rw [hstores heard hheard]

/-- The sum of a stored column is opened. Then the pages of the column become unreadable, and still the
sum is what it was, also when the aggregate is sent back. -/
theorem isolated_of_sum :
    let store := columnStore [some 4, some 5]
    ∃ scan s row log, Scan.make store ⟨0⟩ "c" = .ok scan ∧
      Stream.aggregate (ofScan scan) 0 none .sum = .ok s ∧ row.cells = [some (.int 9)] ∧
      Hears (s.run Cursor.start store).2.2 (s.run Cursor.start store).2.1 log ∧
      (∃ heard ∈ log, (⟨0⟩, 0) ∈ heard.before.faults) ∧
      log.map Heard.request = [.hasNext, .next, .rewind, .next] ∧
      log.map Heard.answer = [.ok (.more true), .ok (.row row), .ok .done, .ok (.row row)] := by
  intro store
  obtain ⟨scan, hscan⟩ : ∃ scan, Scan.make store ⟨0⟩ "c" = .ok scan := ⟨_, rfl⟩
  obtain ⟨s, hsum⟩ : ∃ s, Stream.aggregate (ofScan scan) 0 none .sum = .ok s := by
    cases hscan
    exact ⟨_, rfl⟩
  have hbuilt : s.Built store := .aggregate (.scan hscan) hsum
  -- the sum is closed, and opens with one row
  obtain ⟨hclosed, hshape, row, hopening, hrow⟩ : s.node.AllClosed ∧ s.shape.ownCalls =
      [.hasNext, .next, .rewind] ∧ ∃ row : Row,
        (s.node.profile store).opening = .ok ⟨[row], none⟩ ∧ row.cells = [some (.int 9)] := by
    cases hscan
    cases hsum
    exact ⟨⟨rfl, rfl⟩, rfl, _, rfl, rfl⟩
  have hholds := Node.profile_holds (PageStore.sound_of_reached (reached_columnStore _))
    (wellFormed_of_built hbuilt)
  have hall := Node.closed_self store hclosed
  obtain ⟨all, hcollect, hheard⟩ := isolated (by rw [hshape]; simp)
    (hholds.start_of_opening hall hopening)
  obtain rfl : all = [row] := by
    rw [hholds.collect_of_opening hall hopening] at hcollect
    cases hcollect
    rfl
  have hcall : ∀ request, request ∈ [.hasNext, .next, .rewind] → request ∈ s.shape.ownCalls := by
    rw [hshape]
    exact fun _ => id
  have hlog : Hears (s.run Cursor.start store).2.2 (s.run Cursor.start store).2.1 _ :=
    .ask (hcall .hasNext (by simp)) <| .elapse (.failPage _ ⟨0⟩ 0) <|
      .ask (hcall .next (by simp)) <| .ask (hcall .rewind (by simp)) <|
        .ask (hcall .next (by simp)) <| .done _ _
  refine ⟨scan, s, row, _, hscan, hsum, hrow, hlog, ?_, rfl, (hheard hlog).1⟩
  exact ⟨_, .tail _ (.head _), List.mem_cons_self⟩

end Stream

end RowStream
