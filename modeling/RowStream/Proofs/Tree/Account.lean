import RowStream.Proofs.Join.Account
import RowStream.Proofs.Join.Strategies
import RowStream.Proofs.Tree.Rewound

/-!
# `RowStream.Proofs.Tree.Account` — when a join finds no rows

Where both sides of a join give their rows, at a start as well as at a rewind, the join fails only if
its strategy cannot do what is asked: a table of values does not find ranges, and blocks need room in
the buffer and in the account, of which others may hold a part. What others hold is known, so the
failure can be told in advance.

## Contents
- `Budget.shared_acquire` — taking bytes is something that others do.
- `Join.sides_of_rewind`, `Aggregate.groups_of_rewind` — what a rewind that succeeds has found.
- `Node.plays_of_rewind`, `Node.plays_of_recollect` — what a tree gives after it went back.
- `Join.Settles` — a result that is told in advance.
- `Join.settles_of_answer`, `Node.start_settles`, `Node.rewind_settles` — what comes of a start and of
  a rewind.
- `Join.traded_settles` — the account of a join, and the failures that depend on it.
-/

namespace RowStream

open Call

/-- Taking bytes, if there are as many, is something that others do to accounts. -/
theorem Budget.shared_acquire (size : Nat) (tag : String) :
    Budget.Shared fun b => ((acquire? size tag).run b).2 := by
  intro b hb
  simp only [acquire?_run]
  by_cases hrefused : 0 < size ∧ b.capacity < Word.saturatingAdd b.used size
  · simpa [hrefused] using hb
  · rw [if_neg hrefused]
    unfold charged
    by_cases h0 : size = 0
    · simpa [h0] using hb
    · have hroom : ¬ b.capacity < Word.saturatingAdd b.used size := fun hfull =>
        hrefused ⟨Nat.pos_of_ne_zero h0, hfull⟩
      simpa [h0] using Nat.not_lt.1 hroom

/-! ## After a rewind -/

/-- Where going back is closing and opening again, a stream that goes back plays a script. -/
theorem Profile.Holds.plays_of_reopens {σ : Type} [Cursor σ] {store : PageStore} {P : Profile σ}
    (h : P.Holds store) {s : σ} (hown : P.own s)
    (hreopens : Cursor.rewind store s = Cursor.start store (Cursor.close s))
    (hs : (Cursor.rewind store s).result = .ok ()) :
    ∃ full shows, Cursor.Plays store (Cursor.schema s) full shows ∧
      shows full (Cursor.rewind store s).state := by
  rw [hreopens] at hs ⊢
  obtain ⟨full, hfull, hshows⟩ := h.start.of_ok (h.close hown) hs
  rw [h.schema_eq hown]
  exact ⟨full, P.shows, h.plays hfull, hshows⟩

namespace Join

variable {σ τ : Type} [Cursor σ] [Cursor τ] {store : PageStore}

/-- Where a join goes back, it is open and both sides go back. -/
theorem sides_of_rewind [Sorting] {j : Join σ τ} (h : (rewind store j).result = .ok ()) :
    j.pending.isSome = true ∧ (Cursor.rewind store j.left).result = .ok () ∧
      (Cursor.rewind store j.right).result = .ok () := by
  have hguarded : Cursor.Guarded store fun j : Join σ τ => j.pending.isSome := guarded
  have hopen : j.pending.isSome = true := by
    cases hp : j.pending with
    | some rows => rfl
    | none =>
      obtain ⟨kind, hres, -⟩ := hguarded.rewind (s := j) (by simp [hp])
      cases hres.symm.trans h
  have hsides : (rewindSides store j).result = .ok () := by
    rw [rewind_eq hopen] at h
    cases hres : (rewindSides store j).result with
    | ok u => rfl
    | error e =>
      rw [bind_of_error hres] at h
      cases h
  refine ⟨hopen, ?_⟩
  -- the left side goes first, and the right one only after it
  unfold rewindSides at hsides
  simp only [Bind.bind, Call.bind, onLeft, onRight, Call.zoom, Call.onError, Call.modify] at hsides
  cases hleft : (Cursor.rewind store j.left).result with
  | error e => simp [hleft] at hsides
  | ok u =>
    cases hright : (Cursor.rewind store j.right).result with
    | error e => simp [hleft, hright] at hsides
    | ok u => exact ⟨rfl, rfl⟩

end Join

namespace Aggregate

variable {σ : Type} [Cursor σ] {store : PageStore}

/-- Where an aggregate goes back, it has groups, and they have rows. -/
theorem groups_of_rewind [Grouping.Listing] {a : Aggregate σ} (h : (rewind store a).result = .ok ()) :
    ∃ run rows, a.run = some run ∧ run.groups.rows a.schema = .ok rows := by
  have hguarded : Cursor.Guarded store fun a : Aggregate σ => a.run.isSome := guarded
  cases hrun : a.run with
  | none =>
    obtain ⟨kind, hres, -⟩ := hguarded.rewind (s := a) (by simp [hrun])
    cases hres.symm.trans h
  | some run =>
    rw [rewind_of_run store hrun] at h
    cases hrows : run.groups.rows a.schema with
    | ok rows => exact ⟨run, rows, rfl, hrows⟩
    | error e => cases (replay_of_error store (b := a.bare) rfl hrows).1.symm.trans h

end Aggregate

namespace Node

variable {store : PageStore} [Join.Sorting] [Grouping.Listing]

/-- Only an open tree goes back. -/
theorem isOpen_of_rewind {shape : Shape} {t : Node shape}
    (h : (Cursor.rewind store t).result = .ok ()) : t.isOpen = true := by
  cases hopen : t.isOpen with
  | true => rfl
  | false =>
    obtain ⟨kind, hres, -⟩ := (guarded store shape).rewind hopen
    cases hres.symm.trans h

/-- A tree that goes back plays a script, also if it is not the one that it was opened with. -/
theorem plays_of_rewind (hstore : store.Sound) {shape : Shape} {t : Node shape}
    (hwell : t.WellFormed store) (h : (Cursor.rewind store t).result = .ok ()) :
    ∃ full shows, Cursor.Plays store (Cursor.schema t) full shows ∧
      shows full (Cursor.rewind store t).state := by
  induction shape with
  | materialized =>
    have hreopens := (Materialized.reopens store).rewind_eq (isOpen_of_rewind h)
    exact (profile_holds hstore hwell).plays_of_reopens (own_self store t) hreopens h
  | scan =>
    have hreopens := (Scan.reopens store).rewind_eq (isOpen_of_rewind h)
    exact (profile_holds hstore hwell).plays_of_reopens (own_self store t) hreopens h
  | sealed inner ih =>
    obtain ⟨full, shows, hplays, hshows⟩ := ih hwell h
    exact ⟨full, _, Sealed.plays hplays, hshows⟩
  | join left right ihl ihr =>
    obtain ⟨hset, hwl, hwr⟩ := hwell
    obtain ⟨hopen, hleft, hright⟩ := Join.sides_of_rewind h
    obtain ⟨fullLeft, showsLeft, hplaysl, hshowsl⟩ := ihl hwl hleft
    obtain ⟨fullRight, showsRight, hplaysr, hshowsr⟩ := ihr hwr hright
    -- the join has found the answer to the scripts that its sides play now
    obtain ⟨rows, hanswer, hgiving⟩ :=
      (Join.rewind_of_sides hplaysl hplaysr hset.sound hopen ⟨hleft, _, hshowsl⟩
        ⟨hright, _, hshowsr⟩).of_ok rfl h
    exact ⟨⟨rows, none⟩, _, Join.plays_of_sides hplaysl hplaysr hset.sound hanswer, hgiving⟩
  | aggregate child =>
    -- the groups are the old ones, and the child is not needed
    obtain ⟨run, rows, hrun, hrows⟩ := Aggregate.groups_of_rewind h
    refine ⟨⟨rows, none⟩, _, Aggregate.plays_of_groups (b := Aggregate.bare t) hrows
      fun _ : Node child => True, ?_⟩
    have hrewind := (Aggregate.rewind_of_run store hrun).trans
      (Aggregate.replay_of_ok store (b := Aggregate.bare t) rfl hrows)
    rw [show (Cursor.rewind store t).state = _ from congrArg Outcome.state hrewind]
    exact ⟨rfl, rfl, trivial, rfl⟩

/-- A tree that goes back and gives all its rows plays a script that ends. -/
theorem plays_of_recollect (hstore : store.Sound) {shape : Shape} {t : Node shape}
    (hwell : t.WellFormed store) {rows : List Row}
    (h : (Cursor.recollect store t).result = .ok rows) :
    (Cursor.rewind store t).result = .ok () ∧
      ∃ shows, Cursor.Plays store (Cursor.schema t) ⟨rows, none⟩ shows ∧
        shows ⟨rows, none⟩ (Cursor.rewind store t).state := by
  unfold Cursor.recollect at h
  cases hres : (Cursor.rewind store t).result with
  | error e =>
    rw [bind_of_error hres] at h
    cases h
  | ok u =>
    refine ⟨rfl, ?_⟩
    rw [bind_of_ok hres] at h
    obtain ⟨⟨all, failure⟩, shows, hplays, hshows⟩ := plays_of_rewind hstore hwell hres
    have hdrain := (hplays.tells.drain hshows).1.symm.trans h
    cases failure with
    | none =>
      cases hdrain
      exact ⟨shows, hplays, hshows⟩
    | some e => cases hdrain

end Node

/-! ## What can be told in advance -/

namespace Join

/-- A result that can be told from the strategy, the bytes that others hold of the account and the
widths of the rows: a failure where the strategy is stuck, and nowhere else; and while nobody else
holds anything, blocks are refused only because a row is wider than the buffer. -/
structure Settles {σ τ : Type} (j : Join σ τ) (held left right : Nat)
    (result : Except StreamError Unit) : Prop where
  /-- It fails where the strategy is stuck. -/
  fails_iff : (∃ e, result = .error e) ↔ j.Stuck held left right
  /-- A row is wider than the buffer. -/
  wide : held = 0 → j.strategy = .blockNestedLoop →
    (j.Stuck 0 left right ↔ j.bufferBytes < left ∨ j.bufferBytes < right) ∧
      ∀ e, result = .error e → j.TooWide left right e

/-- What comes of the scripts of both sides, if these end, can be told in advance. -/
theorem settles_of_answer [Sorting] {σ τ : Type} {j : Join σ τ} {ls rs : Schema}
    (hset : j.bare.WellSet ls rs) (left right : List Row) {result : Except StreamError Unit}
    (h : ∀ e, result = .error e ↔ j.bare.answer ls rs ⟨left, none⟩ ⟨right, none⟩ = .error e) :
    j.Settles j.budget.used ls.byteSize rs.byteSize result := by
  obtain ⟨hfails, hwide⟩ := answer_fails_iff hset left right
  refine ⟨(exists_congr h).trans hfails, ?_⟩
  intro hheld hblocks
  constructor
  · rw [← cramped_zero_iff]
    simp [Stuck, hblocks]
  · intro e he
    obtain ⟨tag, hrow, hlt⟩ := hwide hheld hblocks e ((h e).1 he)
    exact .mk tag hrow hlt

end Join

namespace Node

variable {store : PageStore} {l r : Shape} {j : Join (Node l) (Node r)} {rows rows' : List Row}
  [Join.Sorting] [Grouping.Listing]
  (hset : j.bare.WellSet (Cursor.schema j.left) (Cursor.schema j.right))
  (hwl : j.left.WellFormed store) (hwr : j.right.WellFormed store)
include hset hwl hwr

/-- A closed join whose sides can be collected. -/
theorem start_settles (hstore : store.Sound) (hclosed : j.pending = none)
    (hleft : (Cursor.collect store j.left).result = .ok rows)
    (hright : (Cursor.collect store j.right).result = .ok rows') :
    j.Settles j.budget.used (Cursor.schema j.left).byteSize (Cursor.schema j.right).byteSize
      (Cursor.start store j).result := by
  have hholdsl := profile_holds hstore hwl
  have hholdsr := profile_holds hstore hwr
  obtain ⟨hshutl, hopenl⟩ := hholdsl.closed_of_collect (own_self store _) hleft
  obtain ⟨hshutr, hopenr⟩ := hholdsr.closed_of_collect (own_self store _) hright
  have hresult := (Join.profile_holds hholdsl hholdsr hset.sound).start_result
    (s := j) ⟨hclosed, rfl, hshutl, hshutr⟩
  rw [Join.opening_of_sides hopenl hopenr, schema_profile, schema_profile] at hresult
  apply Join.settles_of_answer hset rows rows'
  intro e
  rw [hresult]
  cases j.bare.answer (Cursor.schema j.left) (Cursor.schema j.right) ⟨rows, none⟩ ⟨rows', none⟩ <;>
    simp [Except.map]

/-- An open join whose sides can be collected once more. -/
theorem rewind_settles (hstore : store.Sound) (hopen : j.pending.isSome = true)
    (hleft : (Cursor.recollect store j.left).result = .ok rows)
    (hright : (Cursor.recollect store j.right).result = .ok rows') :
    j.Settles j.budget.used (Cursor.schema j.left).byteSize (Cursor.schema j.right).byteSize
      (Cursor.rewind store j).result := by
  obtain ⟨hresl, showsLeft, hplaysl, hshowsl⟩ := plays_of_recollect hstore hwl hleft
  obtain ⟨hresr, showsRight, hplaysr, hshowsr⟩ := plays_of_recollect hstore hwr hright
  have hrewind := Join.rewind_of_sides hplaysl hplaysr hset.sound hopen ⟨hresl, _, hshowsl⟩
    ⟨hresr, _, hshowsr⟩
  apply Join.settles_of_answer hset rows rows'
  intro e
  show (Join.rewind store j).result = .error e ↔ _
  cases hres : (Join.rewind store j).result with
  | ok u =>
    obtain ⟨found, hanswer, -⟩ := hrewind.of_ok rfl hres
    simp [hanswer]
  | error e' =>
    have hanswer := hrewind.of_error rfl hres
    simp [hanswer]

end Node

namespace Join

/-- The account of a join counts what others hold of it, after any calls and whatever came of them, and
never had more on it than two full buffers; the sides may be any streams. And as long as both sides of
a join can be opened and read, or sent back and read, it can be told in advance whether the join can:
from its strategy and its condition, from what others hold, and from the widths of the rows. -/
theorem traded_settles [Join.Sorting] [Grouping.Listing] {bytes : Nat} :
    (∀ {σ τ : Type} {j : Join σ τ} {live : List Reservation}, Traded bytes j live →
      j.bufferBytes = bytes ∧ j.budget.used = (live.map Reservation.bytes).sum ∧
        j.budget.peak.level ≤ 2 * bytes) ∧
    ∀ {store : PageStore} {l r : Shape} {j : Join (Node l) (Node r)} {live : List Reservation},
      store.Reached → Stream.Built store ⟨.join l r, j⟩ → Traded bytes j live →
      (j.pending = none → ∀ {rows rows' : List Row},
        (Cursor.collect store j.left).result = .ok rows →
        (Cursor.collect store j.right).result = .ok rows' →
        j.Settles (live.map Reservation.bytes).sum (Cursor.schema j.left).byteSize
          (Cursor.schema j.right).byteSize (Cursor.start store j).result) ∧
      (j.pending.isSome = true → ∀ {rows rows' : List Row},
        (Cursor.recollect store j.left).result = .ok rows →
        (Cursor.recollect store j.right).result = .ok rows' →
        j.Settles (live.map Reservation.bytes).sum (Cursor.schema j.left).byteSize
          (Cursor.schema j.right).byteSize (Cursor.rewind store j).result) := by
  constructor
  · intro σ τ j live h
    have hheld := held_of_traded h
    exact ⟨hheld.buffer_eq, hheld.balanced.used_eq, hheld.peak_le⟩
  · intro store l r j live hreached hbuilt h
    have hstore := PageStore.sound_of_reached hreached
    obtain ⟨hset, hwl, hwr⟩ := Stream.wellFormed_of_built hbuilt
    have hused : j.budget.used = (live.map Reservation.bytes).sum := (held_of_traded h).balanced.used_eq
    rw [← hused]
    constructor
    · intro hclosed rows rows' hleft hright
      exact Node.start_settles hset hwl hwr hstore hclosed hleft hright
    · intro hopen rows rows' hleft hright
      exact Node.rewind_settles hset hwl hwr hstore hopen hleft hright

/-- A join by blocks of two rows each, which take all of the account. -/
def ofColumns : Join (Node .materialized) (Node .materialized) :=
  { predicate := ⟨0, .eq, 0⟩, schema := .ofTypes [.int, .int], strategy := .blockNestedLoop
    bufferBytes := 16, budget := { account := 0, capacity := 32 }
    left := { schema := .ofTypes [.int], rows := Stream.columnRows [some 1] }
    right := { schema := .ofTypes [.int], rows := Stream.columnRows [some 1] } }

/-- That join opens, but not while somebody else holds a single byte. -/
theorem traded_settles_of_columns :
    (∀ e, (Cursor.start (PageStore.empty 64) ofColumns).result ≠ .error e) ∧
    ∃ r j, ofColumns.reserve 1 "outside" = .ok (r, j) ∧ j.budget.used = 1 ∧
      ∃ e, (Cursor.start (PageStore.empty 64) j).result = .error e := by
  have hreached := PageStore.Reached.empty 64
  have hjoin : Stream.join { joinBufferBytes := 16 } 0 ⟨0, .eq, 0⟩ (Stream.column [some 1])
      (Stream.column [some 1]) = .ok ⟨.join .materialized .materialized, ofColumns⟩ := rfl
  have hmake : Join.make { joinBufferBytes := 16 } 0 ⟨0, .eq, 0⟩ ofColumns.left ofColumns.right =
      .ok ofColumns := rfl
  have hbuilt := Stream.Built.join (Stream.built_column (PageStore.empty 64) _)
    (Stream.built_column _ _) hjoin
  have htraded : Traded 16 ofColumns [] := .make rfl hmake
  have hcollect : ∀ side : Node .materialized, side.AllClosed →
      (Cursor.collect (PageStore.empty 64) side).result = .ok (Materialized.rows side) := by
    intro side hside
    have hwell : side.WellFormed (PageStore.empty 64) := trivial
    have hholds := Node.profile_holds (PageStore.sound_of_reached hreached) hwell
    exact hholds.collect_of_opening (Node.closed_self _ hside) rfl
  constructor
  · have hsettles := (traded_settles.2 hreached hbuilt htraded).1 rfl (hcollect _ rfl) (hcollect _ rfl)
    intro e he
    have hstuck := hsettles.fails_iff.1 ⟨e, he⟩
    revert hstuck
    unfold Stuck Cramped
    decide
  · obtain ⟨r, j, hr⟩ : ∃ r j, ofColumns.reserve 1 "outside" = .ok (r, j) := ⟨_, _, rfl⟩
    have htaken := htraded.reserve hr
    have hshared := Stream.Built.share (Budget.shared_acquire 1 "outside") hbuilt
    cases hr
    have hsettles := (traded_settles.2 hreached hshared htaken).1 rfl (hcollect _ rfl) (hcollect _ rfl)
    refine ⟨_, _, rfl, (traded_settles.1 htaken).2.1, hsettles.fails_iff.2 ?_⟩
    unfold Stuck Cramped
    decide

end Join

end RowStream
