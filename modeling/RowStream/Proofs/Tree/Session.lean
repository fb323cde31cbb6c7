import RowStream.Proofs.Tree.Built

/-!
# `RowStream.Proofs.Tree.Session` — every tree is a cursor over rows

Whatever a tree is built of, to those who use it while nothing else changes it is a cursor: closed,
or open at a position among its rows. The rows are found anew by every start and every rewind, and
are always the same up to their order.

## Contents
- `View`, `View.Answers` — a cursor, and what it may answer to a call.
- `Stream.Follows` — a tree answers a list of calls as a cursor does.
- `Profile.Seen`, `Holds.answers` — one call.
- `Node.ends` — without faults, no stream breaks off.
- `Stream.profile_holds_of_built`, `Stream.run_of_opening` — a tree that gives a row.
- `Stream.follows_of_built` — every list of calls.
-/

namespace RowStream

open Call

/-- What can be seen of a cursor. -/
inductive View where
  /-- It is closed. -/
  | closed
  /-- It is open, and stands at a position among the rows. -/
  | opened (rows : List Row) (position : Nat)

namespace View

/-- The calls that are out of place. -/
def Refuses : View → Request → Prop
  | closed, request => request = .hasNext ∨ request = .next ∨ request = .rewind
  | opened _ _, request => request = .start

/-- What a cursor over the rows of `all`, in any order, may answer to a call, and how it is seen
afterwards. -/
inductive Answers (all : List Row) : View → Request → Except StreamError Answer → View → Prop where
  /-- A start leads to the first row. -/
  | start {rows : List Row} : rows.Perm all → Answers all closed .start (.ok .done) (opened rows 0)
  /-- A start that fails leaves the cursor closed. -/
  | startFails (e : StreamError) : Answers all closed .start (.error e) closed
  /-- An open cursor is not started. -/
  | startAgain (rows : List Row) (position : Nat) (kind : StreamKind) :
    Answers all (opened rows position) .start (.error (.usage (.alreadyOpen kind)))
      (opened rows position)
  /-- There is a next row before the end. -/
  | hasNext (rows : List Row) (position : Nat) :
    Answers all (opened rows position) .hasNext (.ok (.more (position < all.length)))
      (opened rows position)
  /-- The next row is the one at the position. -/
  | next {rows : List Row} {position : Nat} {row : Row} : rows[position]? = some row →
    Answers all (opened rows position) .next (.ok (.row row)) (opened rows (position + 1))
  /-- At the end there is no next row. -/
  | exhausted {rows : List Row} {position : Nat} : position = all.length →
    Answers all (opened rows position) .next (.error .exhausted) (opened rows position)
  /-- A rewind leads to the first row, perhaps in another order. -/
  | rewind {rows rows' : List Row} {position : Nat} : rows'.Perm all →
    Answers all (opened rows position) .rewind (.ok .done) (opened rows' 0)
  /-- A closed cursor answers nothing. -/
  | notOpen {request : Request} (kind : StreamKind) : closed.Refuses request →
    Answers all closed request (.error (.usage (.notOpen kind))) closed
  /-- A cursor can be closed at any time. -/
  | close (view : View) : Answers all view .close (.ok .done) closed

end View

namespace Stream

/-- The tree answers the calls, one after the other, as a cursor over the rows of `all` that is seen
as `view`; a call that is out of place changes nothing. The store counts the pages that are read. -/
inductive Follows [Join.Sorting] [Grouping.Listing] (all : List Row) :
    View → PageStore → Stream → List Request → Prop where
  /-- No call. -/
  | nil (view : View) (store : PageStore) (s : Stream) : Follows all view store s []
  /-- One call, then the others. -/
  | cons {view view' : View} {store : PageStore} {s : Stream} {request : Request}
    {requests : List Request} :
    view.Answers all request (s.run request.perform store).1 view' →
    (view.Refuses request → (s.run request.perform store).2.1 = s) →
    Follows all view' (s.run request.perform store).2.2 (s.run request.perform store).2.1 requests →
      Follows all view store s (request :: requests)

end Stream

/-! ## One call -/

namespace Profile

variable {σ : Type} {P : Profile σ} {store : PageStore}

/-- The rows that a start leads to. -/
def rows (P : Profile σ) : List Row :=
  match P.opening with
  | .ok full => full.rows
  | .error _ => []

/-- A script that is started does not break off. -/
def Ends (P : Profile σ) : Prop := ∀ {full}, P.opening = .ok full → full.failure = none

/-- The state is seen as a cursor over the rows of the profile. -/
def Seen (P : Profile σ) : View → σ → Prop
  | .closed, s => P.resting s
  | .opened rows position, s =>
    P.opening = .ok ⟨rows, none⟩ ∧ position ≤ rows.length ∧ P.shows ⟨rows.drop position, none⟩ s

/-- A start or a rewind that leads to the script of the opening leads to the first row. -/
theorem seen_first (hends : P.Ends) {full : Script} {s : σ} (hfull : P.opening = .ok full)
    (hs : P.shows full s) : P.Seen (.opened P.rows 0) s := by
  obtain ⟨rows, failure⟩ := full
  obtain rfl : failure = none := hends hfull
  have hrows : P.rows = rows := by
    unfold Profile.rows
    rw [hfull]
  rw [hrows]
  exact ⟨hfull, Nat.zero_le _, hs⟩

variable [Cursor σ]

/-- A call on a closed cursor that is refused. -/
theorem answers_refused {s : σ} (hs : P.Seen .closed s) {request : Request}
    (hout : View.closed.Refuses request) (h : Refuses store request.perform .notOpen s) :
    ∃ view, View.Answers P.rows .closed request (request.perform store s).result view ∧
      P.Seen view (request.perform store s).state ∧
      (View.closed.Refuses request → (request.perform store s).state = s) := by
  obtain ⟨kind, hres, hst⟩ := h
  rw [hres, hst]
  exact ⟨.closed, .notOpen kind hout, hs, fun _ => rfl⟩

namespace Holds

/-- A call on a closed cursor. -/
theorem answers_closed (h : P.Holds store) (hends : P.Ends) {s : σ} (hs : P.Seen .closed s)
    (request : Request) :
    ∃ view, View.Answers P.rows .closed request (request.perform store s).result view ∧
      P.Seen view (request.perform store s).state ∧
      (View.closed.Refuses request → (request.perform store s).state = s) := by
  cases request with
  | start =>
    obtain ⟨hr, ht⟩ := Request.perform_start store s
    rw [hr, ht]
    by_cases hclosed : P.closed s
    · cases hres : (Cursor.start store s).result with
      | ok u =>
        obtain ⟨full, hfull, hshows⟩ := h.start.of_ok hclosed hres
        exact ⟨_, .start (List.Perm.refl _), seen_first hends hfull hshows, by simp [View.Refuses]⟩
      | error e =>
        exact ⟨_, .startFails e, h.resting_of_closed (h.start.of_error hclosed hres).2,
          by simp [View.Refuses]⟩
    · -- a stream below is open, so that this one does not start
      have hstart := h.start_refused (h.own_of_resting hs) hclosed
      cases hres : (Cursor.start store s).result with
      | ok u => exact (hstart.of_ok rfl hres).elim
      | error e =>
        exact ⟨_, .startFails e, (hstart.of_error rfl hres).2 hs, by simp [View.Refuses]⟩
  | hasNext => exact answers_refused hs (.inl rfl) ((h.hasNext_resting hs).map _)
  | next => exact answers_refused hs (.inr (.inl rfl)) ((h.next_resting hs).map _)
  | rewind => exact answers_refused hs (.inr (.inr rfl)) ((h.rewind_resting hs).map _)
  | close =>
    exact ⟨_, .close _, h.resting_of_closed (h.close (h.own_of_resting hs)), by simp [View.Refuses]⟩

/-- A call on an open cursor. -/
theorem answers_opened (h : P.Holds store) (hends : P.Ends) {rows : List Row} {position : Nat} {s : σ}
    (hs : P.Seen (.opened rows position) s) (request : Request) :
    ∃ view, View.Answers P.rows (.opened rows position) request (request.perform store s).result view ∧
      P.Seen view (request.perform store s).state ∧
      ((View.opened rows position).Refuses request → (request.perform store s).state = s) := by
  obtain ⟨hopening, hposition, hshows⟩ := hs
  have hplays := h.plays hopening
  obtain rfl : P.rows = rows := by
    unfold Profile.rows
    rw [hopening]
  cases request with
  | start =>
    obtain ⟨kind, hres, hst⟩ : Refuses store Request.start.perform .alreadyOpen s :=
      (h.start_open hshows).map _
    rw [hres, hst]
    exact ⟨_, .startAgain _ _ kind, ⟨hopening, hposition, hshows⟩, fun _ => rfl⟩
  | hasNext =>
    obtain ⟨hres, hst⟩ := hplays.hasNext _ s hshows
    obtain ⟨hr, ht⟩ := Request.perform_hasNext store s
    -- there is a row exactly before the end
    have hmore : (Script.hasNext ⟨P.rows.drop position, none⟩) =
        .ok (decide (position < P.rows.length)) := by
      by_cases hlt : position < P.rows.length
      · rw [List.drop_eq_getElem_cons hlt]
        simp [Script.hasNext, hlt]
      · rw [List.drop_eq_nil_of_le (Nat.not_lt.1 hlt)]
        simp [Script.hasNext, hlt]
    rw [hr, ht, hres, hmore]
    exact ⟨_, .hasNext _ _, ⟨hopening, hposition, hst⟩, by simp [View.Refuses]⟩
  | next =>
    obtain ⟨hres, hst⟩ := hplays.next hshows
    obtain ⟨hr, ht⟩ := Request.perform_next store s
    rw [hr, ht, hres]
    -- before the end the next row is taken, at the end there is none
    by_cases hlt : position < P.rows.length
    · rw [List.drop_eq_getElem_cons hlt] at hst ⊢
      exact ⟨_, .next (List.getElem?_eq_getElem hlt), ⟨hopening, hlt, hst⟩, by simp [View.Refuses]⟩
    · rw [List.drop_eq_nil_of_le (Nat.not_lt.1 hlt)] at hst ⊢
      refine ⟨_, .exhausted (Nat.le_antisymm hposition (Nat.not_lt.1 hlt)), ?_, by simp [View.Refuses]⟩
      refine ⟨hopening, hposition, ?_⟩
      rw [List.drop_eq_nil_of_le (Nat.not_lt.1 hlt)]
      exact hst
  | rewind =>
    obtain ⟨hres, hst⟩ := hplays.rewind hshows
    obtain ⟨hr, ht⟩ := Request.perform_rewind store s
    rw [hr, ht, hres]
    exact ⟨_, .rewind (List.Perm.refl _), seen_first hends hopening hst, by simp [View.Refuses]⟩
  | close =>
    exact ⟨_, .close _, h.resting_of_closed (h.close (h.own_of_shows hshows)), by simp [View.Refuses]⟩

/-- A call on a cursor, be it closed or open. -/
theorem answers (h : P.Holds store) (hends : P.Ends) {view : View} {s : σ} (hs : P.Seen view s)
    (request : Request) :
    ∃ view', view.Answers P.rows request (request.perform store s).result view' ∧
      P.Seen view' (request.perform store s).state ∧
      (view.Refuses request → (request.perform store s).state = s) := by
  cases view with
  | closed => exact h.answers_closed hends hs request
  | opened rows position => exact h.answers_opened hends hs request

end Holds

end Profile

/-! ## All calls -/

namespace Node

variable {store : PageStore}

/-- Without faults, no stream breaks off. -/
theorem ends [Join.Sorting] [Grouping.Listing] (hfaults : store.faults = []) {shape : Shape}
    {t : Node shape} (h : t.WellFormed store) : (t.profile store).Ends := by
  induction shape with
  | materialized =>
    rintro full ⟨⟩
    rfl
  | scan =>
    intro full hfull
    obtain ⟨columns, hcolumns, -⟩ := h
    obtain ⟨found, hfound, -⟩ := PageStore.table_of_columns? hcolumns
    have hfree : ∀ page, (Scan.table t, page) ∉ store.faults := by simp [hfaults]
    cases (Scan.opening_of_no_faults hfree hfound).symm.trans hfull
    rfl
  | sealed inner ih => exact ih h
  | join left right =>
    intro full hfull
    obtain ⟨-, -, rows, -, -, -, rfl⟩ := Join.opening_eq_ok_iff.1 hfull
    rfl
  | aggregate child =>
    intro full hfull
    obtain ⟨-, -, rows, -, -, rfl⟩ := Aggregate.opening_eq_ok_iff.1 hfull
    rfl

end Node

namespace Stream

/-- What follows from the profile of a tree, however often its pages have been read. -/
theorem follows_of_seen [Join.Sorting] [Grouping.Listing] {shape : Shape} {P : Profile (Node shape)}
    (hends : P.Ends) (requests : List Request) {store : PageStore}
    (h : ∀ reads, P.Holds (store.countReads reads)) {view : View} {t : Node shape}
    (ht : P.Seen view t) :
    Follows P.rows view store ⟨shape, t⟩ requests := by
  induction requests generalizing store view t with
  | nil => exact .nil view store _
  | cons request requests ih =>
    obtain ⟨view', hanswer, hseen, hrefused⟩ := (h []).answers hends ht request
    refine .cons hanswer (fun hr => ?_) (ih (fun reads => ?_) hseen)
    · exact congrArg (Stream.mk shape) (hrefused hr)
    -- counting once more is counting more
    · show P.Holds ((store.countReads _).countReads reads)
      rw [PageStore.countReads_countReads]
      exact h _

/-- The tree and the store after some calls. -/
def after [Join.Sorting] [Grouping.Listing] (store : PageStore) (s : Stream) :
    List Request → PageStore × Stream
  | [] => (store, s)
  | request :: requests =>
    let o := s.run request.perform store
    after o.2.2 o.2.1 requests

namespace Follows

variable {all : List Row} {view : View} {store : PageStore} {s : Stream}

/-- After some calls, a tree that follows a cursor still does so. -/
theorem after [Join.Sorting] [Grouping.Listing] {requests more : List Request}
    (h : s.Follows all view store (requests ++ more)) :
    ∃ view', (s.after store requests).2.Follows all view' (s.after store requests).1 more := by
  induction requests generalizing view store s with
  | nil => exact ⟨view, h⟩
  | cons request requests ih =>
    cases h with
    | cons _ _ hrest => exact ih hrest

/-- If a tree that follows a cursor has a next row, it gives it. -/
theorem next_of_hasNext [Join.Sorting] [Grouping.Listing]
    (h : s.Follows all view store [.hasNext, .next])
    (hmore : (s.run Request.hasNext.perform store).1 = .ok (.more true)) :
    ∃ row, ((s.run Request.hasNext.perform store).2.1.run Request.next.perform
      (s.run Request.hasNext.perform store).2.2).1 = .ok (.row row) := by
  cases h with
  | cons hlook _ hrest =>
    rw [hmore] at hlook
    cases hrest with
    | cons htake _ _ =>
      -- the answer says that the position is before the end
      generalize hanswer : Except.ok (Answer.more true) = answer at hlook
      generalize ((s.run Request.hasNext.perform store).2.1.run Request.next.perform
        (s.run Request.hasNext.perform store).2.2).1 = taken at htake ⊢
      cases hlook with
      | hasNext rows position =>
        have hlt : position < all.length := by simpa using hanswer.symm
        cases htake with
        | next hrow => exact ⟨_, rfl⟩
        | exhausted hend => exact absurd hend (Nat.ne_of_lt hlt)
      | notOpen kind _ => cases hanswer

end Follows

/-- The profile of a tree holds however often pages are read: counting them changes nothing. -/
theorem profile_holds_of_built [Join.Sorting] [Grouping.Listing] {store : PageStore}
    (hstore : store.Reached) {s : Stream} (hs : s.Built store) (reads : List TableId) :
    (s.node.profile store).Holds (store.countReads reads) := by
  have hstep := PageStore.Step.countReads store reads
  rw [← Node.profile_countReads store reads]
  exact Node.profile_holds (hstep.sound (PageStore.sound_of_reached hstore))
    (Node.wellFormed_of_step hstep (wellFormed_of_built hs))

/-- A closed tree of which a row is to come is opened, announces the row and gives it. -/
theorem run_of_opening [Join.Sorting] [Grouping.Listing] {store : PageStore}
    (hstore : store.Reached) {s : Stream} (hs : s.Built store) (hclosed : s.node.AllClosed)
    {row : Row} {rows : List Row}
    (hopening : (s.node.profile store).opening = .ok ⟨row :: rows, none⟩) :
    let opened := s.run Request.start.perform store
    let looked := opened.2.1.run Request.hasNext.perform opened.2.2
    opened.1 = .ok .done ∧ looked.1 = .ok (.more true) ∧
      (looked.2.1.run Request.next.perform looked.2.2).1 = .ok (.row row) := by
  intro opened looked
  have hprofile := profile_holds_of_built hstore hs
  have hall := Node.closed_self store hclosed
  obtain ⟨hstarted, hstate⟩ := Request.perform_start store s.node
  have hresult : (Cursor.start store s.node).result = .ok () :=
    (hprofile []).start_of_opening hall hopening
  obtain ⟨full, hfull, hshows⟩ := (hprofile []).start.of_ok hall hresult
  cases hopening.symm.trans hfull
  have hopened : (s.node.profile store).shows ⟨row :: rows, none⟩ opened.2.1.node := by
    rw [show opened.2.1.node = (Cursor.start store s.node).state from hstate]
    exact hshows
  -- the second call finds the pages counted that the first one read, and so does the third one
  have hplays (reads : List TableId) := (hprofile reads).plays hopening
  obtain ⟨hlook, hstill⟩ := (hplays (Request.start.perform store s.node).reads).hasNext _ _ hopened
  obtain ⟨hlooked, hlookedState⟩ := Request.perform_hasNext opened.2.2 opened.2.1.node
  have hannounced : (s.node.profile store).shows ⟨row :: rows, none⟩ looked.2.1.node := by
    rw [show looked.2.1.node = (Cursor.hasNext opened.2.2 opened.2.1.node).state from hlookedState]
    exact hstill
  have hstore' : looked.2.2 = store.countReads _ := PageStore.countReads_countReads ..
  refine ⟨?_, ?_, ?_⟩
  · show (Request.start.perform store s.node).result = _
    rw [hstarted, hresult]
    rfl
  · show (Request.hasNext.perform opened.2.2 opened.2.1.node).result = _
    rw [hlooked]
    exact congrArg _ hlook
  · show (Request.next.perform looked.2.2 looked.2.1.node).result = _
    rw [(Request.perform_next looked.2.2 looked.2.1.node).1, hstore']
    exact congrArg _ ((hplays _).next hannounced).1

/-- A tree of any shape over a store without faults, closed at first, answers every list of calls as
a cursor does. The rows are, up to their order, the same after every start and every rewind, and a
row that is announced is given. -/
theorem follows_of_built [Join.Sorting] [Grouping.Listing] {store : PageStore}
    (hstore : store.Reached) (hfaults : store.faults = []) {s : Stream} (hs : s.Built store)
    (hclosed : s.node.isOpen = false) :
    ∃ all : List Row, ∀ requests,
      s.Follows all .closed store requests ∧
        ∀ store' s', s.after store requests = (store', s') →
          (s'.run Request.hasNext.perform store').1 = .ok (.more true) →
          ∃ row, ((s'.run Request.hasNext.perform store').2.1.run Request.next.perform
            (s'.run Request.hasNext.perform store').2.2).1 = .ok (.row row) := by
  have hwell := wellFormed_of_built hs
  have hprofile := profile_holds_of_built hstore hs
  have hfollows : ∀ requests,
      s.Follows (s.node.profile store).rows .closed store requests := fun requests =>
    follows_of_seen (Node.ends hfaults hwell) requests hprofile (Node.resting_self store hclosed)
  refine ⟨(s.node.profile store).rows, fun requests => ⟨hfollows requests, ?_⟩⟩
  intro store' s' hafter hmore
  obtain ⟨view, hview⟩ := (hfollows (requests ++ [.hasNext, .next])).after
  rw [hafter] at hview
  exact hview.next_of_hasNext hmore

/-- The join of two columns, of which one lacks a value. It is opened, announces a row and gives it. -/
theorem follows_of_built_columns :
    ∃ s, Stream.join { strategy := .nestedLoop } 0 ⟨0, .eq, 0⟩ (column [some 1])
        (column [some 1, none]) = .ok s ∧
      (∃ all : List Row, ∀ requests, s.Follows all .closed (PageStore.empty 64) requests) ∧
      let opened := s.run Request.start.perform (PageStore.empty 64)
      let looked := opened.2.1.run Request.hasNext.perform opened.2.2
      opened.1 = .ok .done ∧ looked.1 = .ok (.more true) ∧
        ∃ row, (looked.2.1.run Request.next.perform looked.2.2).1 = .ok (.row row) ∧
          row.cells = [some (.int 1), some (.int 1)] := by
  have hreached := PageStore.Reached.empty 64
  obtain ⟨s, hjoin⟩ : ∃ s, Stream.join { strategy := .nestedLoop } 0 ⟨0, .eq, 0⟩ (column [some 1])
      (column [some 1, none]) = .ok s := ⟨_, rfl⟩
  have hbuilt : s.Built (PageStore.empty 64) := .join (built_column _ _) (built_column _ _) hjoin
  obtain ⟨hclosed, hallClosed, row, hopening, hcells⟩ : s.node.isOpen = false ∧ s.node.AllClosed ∧
      ∃ row : Row, (s.node.profile (PageStore.empty 64)).opening = .ok ⟨[row], none⟩ ∧
        row.cells = [some (.int 1), some (.int 1)] := by
    cases hjoin
    exact ⟨rfl, ⟨rfl, rfl, rfl⟩, _, rfl, rfl⟩
  obtain ⟨hdone, hmore, hrow⟩ := run_of_opening hreached hbuilt hallClosed hopening
  obtain ⟨all, hall⟩ := follows_of_built hreached rfl hbuilt hclosed
  exact ⟨s, hjoin, ⟨all, fun requests => (hall requests).1⟩, hdone, hmore, row, hrow, hcells⟩

end Stream

end RowStream
