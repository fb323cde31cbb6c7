import RowStream.Proofs.Join.Lockstep
import RowStream.Proofs.Tree.Anew
import RowStream.Proofs.Tree.Refuses

/-!
# `RowStream.Proofs.Tree.Rebound` — other children, or none of them

A join or an aggregate either refuses to get other children and stays as it is, or nothing is left of
what it was before: it answers as an operator that is built over these children with the same settings
and with as much taken of its account. A scan that is pointed at a table is the new scan of that table,
or the old one, closed.

## Contents
- `Request.perform_lockstep`, `Request.responses` — every call goes hand in hand, and what a list of calls
  is answered.
- `Stream.rebind`, `Stream.builtOver`, `Stream.columnNames` — getting other children, the operator that is
  built over them, and what an operator calls the columns that it works on.
- `Stream.Matches`, `matches_of_setChildren` — looking and answering like the operator that is built.
- `Scan.reset_cases` — pointing a scan at a table.
- `Stream.rebind_all_or_nothing` — all of this for any operator that can come about.
-/

namespace RowStream

open Call

/-! ## Calls that go hand in hand -/

namespace Request

variable {σ : Type} [Cursor σ] {R : σ → σ → Prop}

/-- If every kind of call goes hand in hand, then so does every call. -/
theorem perform_lockstep {store : PageStore}
    (hstart : Lockstep store R (Cursor.start : Call σ Unit) Cursor.start)
    (hhasNext : Lockstep store R (Cursor.hasNext : Call σ Bool) Cursor.hasNext)
    (hnext : Lockstep store R (Cursor.next : Call σ Row) Cursor.next)
    (hrewind : Lockstep store R (Cursor.rewind : Call σ Unit) Cursor.rewind)
    (hclose : ∀ s s' : σ, R s s' → R (Cursor.close s) (Cursor.close s')) (request : Request) :
    Lockstep store R (request.perform : Call σ Answer) request.perform := by
  cases request with
  | start => exact hstart.bind fun _ => Lockstep.pure _
  | hasNext => exact hhasNext.bind fun _ => Lockstep.pure _
  | next => exact hnext.bind fun _ => Lockstep.pure _
  | rewind => exact hrewind.bind fun _ => Lockstep.pure _
  | close => exact (Lockstep.modify hclose).bind fun _ => Lockstep.pure _

/-- What calls are answered, one after the other, each over the store as it is at that time, and the
tables of which pages are read. -/
def responses (s : σ) : List (PageStore × Request) → List (Except StreamError Answer × List TableId)
  | [] => []
  | (store, request) :: calls =>
    let o := request.perform store s
    (o.result, o.reads) :: responses o.state calls

/-- Where every call goes hand in hand, all of them are answered alike. -/
theorem responses_eq
    (h : ∀ store (request : Request), Lockstep store R (request.perform : Call σ Answer) request.perform)
    {s s' : σ} (hs : R s s') (calls : List (PageStore × Request)) :
    responses s calls = responses s' calls := by
  induction calls generalizing s s' with
  | nil => rfl
  | cons call calls ih =>
    obtain ⟨store, request⟩ := call
    obtain ⟨hresult, hstate, hreads⟩ := h store request s s' hs
    show ((_, _) :: _ : List (Except StreamError Answer × List TableId)) = (_, _) :: _
    rw [hresult, hreads, ih hstate]

end Request

/-- Joins that differ in their marks only answer all calls alike. -/
theorem Join.Like.responses_eq [Join.Sorting] {σ τ : Type} [Cursor σ] [Cursor τ] {j j' : Join σ τ}
    (h : j.Like j') (calls : List (PageStore × Request)) :
    Request.responses j calls = Request.responses j' calls :=
  Request.responses_eq (fun _ => Request.perform_lockstep start_lockstep hasNext_lockstep next_lockstep
    rewind_lockstep fun _ _ => close_like) h calls

namespace Stream

variable {s s' : Stream} {children : List Stream} [Join.Sorting] [Grouping.Listing]

/-! ## Getting other children -/

/-- What comes of giving a stream other children, and the stream after that. -/
def rebind (s : Stream) (children : List Stream) : Except StreamError Unit × Stream :=
  (replaceChildren children).outcome s

/-- Children that are refused leave the stream as it was. -/
theorem rebind_eq (s : Stream) (children : List Stream) :
    s.rebind children =
      match s.setChildren children with
      | .ok s' => (.ok (), s')
      | .error e => (.error e, s) := by
  unfold rebind InPlace.outcome
  rw [replaceChildren_run]
  cases s.setChildren children <;> rfl

/-- The operator that is built over these children with the settings of a stream: for a join its
condition, its strategy, its buffer and as much taken of its account, for an aggregate its columns and
its function. A stream without children is the same over any. -/
def builtOver (s : Stream) (children : List Stream) : Except StreamError Stream :=
  match s, children with
  | ⟨.join _ _, j⟩, [left, right] => do
    return ⟨.join left.shape right.shape, ← Join.anew (Join.bare j) left.node right.node⟩
  | ⟨.aggregate _, a⟩, [child] => Stream.aggregate child a.field a.groupField a.fn
  | s, _ => .ok s

/-- What an operator calls the columns that it works on. -/
def columnNames : Stream → List (Option String)
  | ⟨.join _ _, j⟩ => [Join.leftFieldName j, Join.rightFieldName j]
  | ⟨.aggregate _, a⟩ => [Aggregate.fieldName a, Aggregate.groupFieldName a]
  | _ => []

/-- The stream looks and answers like another one. -/
structure Matches (s new : Stream) : Prop where
  /-- Their rows have the same columns. -/
  schema : s.schema = new.schema
  /-- They call the columns that they work on the same. -/
  columnNames : s.columnNames = new.columnNames
  /-- All calls are answered the same, and read the same pages. -/
  responses : ∀ calls, Request.responses s.node calls = Request.responses new.node calls

/-- A join with other children is the join that is built over them, but for its marks. -/
theorem matches_of_join {store : PageStore} {l r : Shape} {j : Join (Node l) (Node r)}
    (h : Stream.Built store ⟨.join l r, j⟩) (hset : setChildren ⟨.join l r, j⟩ children = .ok s') :
    ∃ new, builtOver ⟨.join l r, j⟩ children = .ok new ∧ s'.Matches new := by
  obtain ⟨left, right, j', rfl, hj, rfl⟩ := of_setChildren_join hset
  obtain ⟨hwell, hleft, hright⟩ := Join.of_setChildren (wellFormed_of_built h).1 hj
  obtain ⟨new, hnew, hnewLeft, hnewRight, hnewPending, hbare⟩ := Join.anew_of_wellSet hwell
  obtain ⟨hpending, -, hj'⟩ := Join.eq_of_setChildren hj
  -- what the old join calls its columns is the one setting that the new one does not have
  have hanew : Join.anew (Join.bare j) left.node right.node = .ok new := by
    rw [← hnew, hj']
    rfl
  have hlike : Join.Like j' new := by
    refine ⟨hbare.symm, hleft.trans hnewLeft.symm, hright.trans hnewRight.symm, ?_⟩
    rw [hj', hnewPending]
    exact hpending
  refine ⟨⟨.join left.shape right.shape, new⟩, ?_, hlike.schema_eq, ?_, hlike.responses_eq⟩
  · show (do return (⟨.join left.shape right.shape, ← Join.anew (Join.bare j) left.node right.node⟩ :
      Stream)) = _
    rw [hanew]
    rfl
  · show [j'.leftFieldName, j'.rightFieldName] = [new.leftFieldName, new.rightFieldName]
    unfold Join.leftFieldName Join.rightFieldName
    rw [hlike.left_eq, hlike.right_eq, hlike.predicate_eq]

/-- An aggregate with another child is the aggregate that is built over it. -/
theorem matches_of_aggregate {c : Shape} {a : Aggregate (Node c)}
    (hset : setChildren ⟨.aggregate c, a⟩ children = .ok s') :
    ∃ new, builtOver ⟨.aggregate c, a⟩ children = .ok new ∧ s'.Matches new := by
  obtain ⟨child, a', rfl, ha, rfl⟩ := of_setChildren_aggregate hset
  refine ⟨⟨.aggregate child.shape, a'⟩, ?_, rfl, rfl, fun _ => rfl⟩
  show (do return (⟨.aggregate child.shape, ← Aggregate.make child.node a.field a.groupField a.fn⟩ :
    Stream)) = _
  rw [Aggregate.make_of_setChild ha]
  rfl

/-- A stream with other children is the stream that is built over them. -/
theorem matches_of_setChildren {store : PageStore} (h : s.Built store)
    (hset : s.setChildren children = .ok s') : ∃ new, s.builtOver children = .ok new ∧ s'.Matches new := by
  obtain ⟨shape, t⟩ := s
  cases shape with
  | join l r => exact matches_of_join h hset
  | aggregate c => exact matches_of_aggregate hset
  | materialized =>
    cases hset
    exact ⟨_, rfl, rfl, rfl, fun _ => rfl⟩
  | scan =>
    cases hset
    exact ⟨_, rfl, rfl, rfl, fun _ => rfl⟩
  | sealed inner =>
    cases hset
    exact ⟨_, rfl, rfl, rfl, fun _ => rfl⟩

end Stream

/-! ## Pointing a scan at a table -/

namespace Scan

/-- The scan looks and answers like a new scan of a table under an alias. -/
theorem reset_of_make {store : PageStore} {table : TableId} {qualifier : String} {new : Scan}
    (h : make store table qualifier = .ok new) (s : Scan) :
    s.reset store table qualifier = (.ok (), new) := by
  rw [reset_eq, h]

/-- If there is no such table, the scan is closed and knows its old one. -/
theorem reset_of_unknown {store : PageStore} {table : TableId}
    (h : store.table table = .error (.unknownTable table)) (s : Scan) (qualifier : String) :
    s.reset store table qualifier = (.error (.unknownTable table), s.close) := by
  rw [reset_eq]
  unfold make
  rw [h]
  rfl

/-- A scan is pointed at a table that is there, and is the new scan of it; or it stays with its old table,
closed. -/
theorem reset_cases (store : PageStore) (s : Scan) (table : TableId) (qualifier : String) :
    (∃ new, make store table qualifier = .ok new ∧ s.reset store table qualifier = (.ok (), new)) ∨
      (store.tables[table.number]? = none ∧
        s.reset store table qualifier = (.error (.unknownTable table), s.close)) := by
  cases ht : store.table table with
  | ok t =>
    left
    have hmake : make store table qualifier =
        .ok { table, qualifier, schema := t.schema.qualify qualifier } := by
      unfold make
      rw [ht]
      rfl
    exact ⟨_, hmake, reset_of_make hmake s⟩
  | error e =>
    right
    obtain ⟨hnone, rfl⟩ := PageStore.table_eq_error_iff.1 ht
    exact ⟨hnone, reset_of_unknown ht s qualifier⟩

end Scan

namespace Stream

/-- Getting other children is all or nothing. Whatever has become of an operator, and in whatever state
the children are, either there is a reason to refuse them, which is told, and the operator is left as it
is; or there is none, and then the operator looks and answers from then on like the one that is built
over these children with the same settings. Likewise a scan is pointed at a table that is there, and is
from then on the new scan of it under its new alias, or it is closed and keeps table, alias and columns. -/
theorem rebind_all_or_nothing [Join.Sorting] [Grouping.Listing] {store : PageStore} {s : Stream}
    (h : s.Built store) (children : List Stream) :
    ((∃ e, s.Refuses children e ∧ s.rebind children = (.error e, s)) ∨
      ∃ s' new, (∀ e, ¬ s.Refuses children e) ∧ s.rebind children = (.ok (), s') ∧
        s.builtOver children = .ok new ∧ s'.Matches new) ∧
    ∀ (scan : Scan) (table : TableId) (qualifier : String),
      (∃ new, Scan.make store table qualifier = .ok new ∧
        scan.reset store table qualifier = (.ok (), new)) ∨
      (store.tables[table.number]? = none ∧ ∃ old,
        scan.reset store table qualifier = (.error (.unknownTable table), old) ∧
        old.position = none ∧ old.table = scan.table ∧ old.qualifier = scan.qualifier ∧
        old.schema = scan.schema) := by
  constructor
  · cases hset : s.setChildren children with
    | error e =>
      left
      refine ⟨e, setChildren_eq_error_iff.1 hset, ?_⟩
      rw [rebind_eq, hset]
    | ok s' =>
      right
      obtain ⟨new, hnew, hmatches⟩ := matches_of_setChildren h hset
      refine ⟨s', new, ?_, ?_, hnew, hmatches⟩
      · intro e hrefuses
        rw [setChildren_eq_error_iff.2 hrefuses] at hset
        cases hset
      · rw [rebind_eq, hset]
  · intro scan table qualifier
    obtain hnew | ⟨hnone, hreset⟩ := Scan.reset_cases store scan table qualifier
    · exact .inl hnew
    · exact .inr ⟨hnone, _, hreset, rfl, rfl, rfl, rfl⟩

/-- A join of two columns gets two others, and refuses to get one only. -/
theorem rebind_all_or_nothing_of_columns :
    ∃ s, Stream.join {} 0 ⟨0, .eq, 0⟩ (column [some 1]) (column [some 1]) = .ok s ∧
      s.rebind [column [some 2]] = (.error (.usage (.joinChildren 1)), s) ∧
      ∃ s' new, s.rebind [column [some 2], column [none]] = (.ok (), s') ∧
        s.builtOver [column [some 2], column [none]] = .ok new ∧ s'.Matches new := by
  obtain ⟨s, hs⟩ : ∃ s, Stream.join {} 0 ⟨0, .eq, 0⟩ (column [some 1]) (column [some 1]) = .ok s :=
    ⟨_, rfl⟩
  have hbuilt := Built.join (built_column (.empty 1) [some 1]) (built_column (.empty 1) [some 1]) hs
  refine ⟨s, hs, ?_, ?_⟩
  · cases hs
    rfl
  obtain ⟨e, -, he⟩ | ⟨s', new, -, hrebind, hnew, hmatches⟩ :=
    (rebind_all_or_nothing hbuilt [column [some 2], column [none]]).1
  · cases hs
    cases he
  · exact ⟨s', new, hrebind, hnew, hmatches⟩

end Stream

end RowStream
