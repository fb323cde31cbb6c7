import RowStream.Proofs.Stream.Fetches
import RowStream.Proofs.Stream.Scan

/-!
# `RowStream.Proofs.Stream.Pages` — a scan is handed each page of its table once a pass

Whatever is asked of an open scan, the pages that it was handed and those that are still ahead of it are
all pages of its table that it began with. A pass that finds no more rows has none ahead.

## Contents
- `Scan.ahead` — the pages that a scan has still to read.
- `load_reads`, `hasNext_reads`, `next_reads` — what a call is handed, it has no longer ahead.
- `pass_reads` — a pass is handed everything that is ahead.
- `Scan.rescans` — every pass costs the pages of the table.
- `Scan.start_begins`, `Scan.rewind_begins` — starting and rewinding costs nothing.
-/

namespace RowStream.Scan

open Call

variable (store : PageStore)

/-- The pages that a scan has still to read, each as its table. -/
def ahead (s : Scan) : List TableId :=
  match s.position with
  | none => []
  | some p => List.replicate p.unread.length s.table

/-- What is read while looking for a row was among the pages that were ahead, and if there is no row, all
of them have been read. -/
theorem load_reads (unread : List Nat) (s : Scan) :
    let o := load s.table unread store s
    o.reads ++ o.state.ahead = List.replicate unread.length s.table ∧
      (o.result = .ok false → o.state.ahead = []) := by
  generalize htable : s.table = x
  induction unread generalizing s with
  | nil => exact ⟨rfl, fun _ => rfl⟩
  | cons page unread ih =>
    unfold load
    simp only [Bind.bind, Call.bind, Call.modify, Call.readPage]
    cases hr : store.readPage x page with
    | error e =>
      constructor
      · simp [ahead, htable]
      · rintro ⟨⟩
    | ok rows =>
      cases hl : rows.toList with
      | nil =>
        -- an empty page is passed over
        obtain ⟨hreads, hend⟩ := ih { s with position := some ⟨[], page :: unread⟩ } htable
        constructor
        · simp only [hl, List.nil_append, List.append_assoc, hreads]
          rfl
        · simpa only [hl] using hend
      | cons row loaded =>
        constructor
        · simp [hl, Call.bind, Call.modify, Pure.pure, Call.pure, ahead, htable, List.replicate_succ]
        · simp [hl, Call.bind, Call.modify, Pure.pure, Call.pure]

theorem hasNext_reads (s : Scan) :
    (hasNext store s).reads ++ (hasNext store s).state.ahead = s.ahead ∧
      ((hasNext store s).result = .ok false → (hasNext store s).state.ahead = []) := by
  obtain ⟨table, qualifier, schema, _ | ⟨_ | ⟨row, loaded⟩, unread⟩⟩ := s
  · exact ⟨rfl, nofun⟩
  · exact load_reads store unread ⟨table, qualifier, schema, some ⟨[], unread⟩⟩
  · exact ⟨rfl, nofun⟩

/-- Taking a loaded row reads nothing. -/
theorem take_reads (s : Scan) : (take store s).reads = [] ∧ (take store s).state.ahead = s.ahead := by
  obtain ⟨table, qualifier, schema, _ | ⟨_ | ⟨row, loaded⟩, unread⟩⟩ := s <;> exact ⟨rfl, rfl⟩

theorem next_reads (s : Scan) :
    (next store s).reads ++ (next store s).state.ahead = s.ahead := by
  obtain ⟨hreads, -⟩ := hasNext_reads store s
  unfold next
  cases hmore : (hasNext store s).result with
  | error e =>
    rw [bind_of_error hmore]
    exact hreads
  | ok more =>
    rw [bind_of_ok hmore]
    cases more with
    | false => simpa [Call.fail, Call.ofExcept] using hreads
    | true =>
      obtain ⟨htake, hahead⟩ := take_reads store (hasNext store s).state
      simpa [htake, hahead] using hreads

/-- A pass to the end reads all pages that are ahead. -/
theorem pass_reads {store : PageStore} {s : Scan} {rows : List Row} (h : Cursor.Gives store s rows) :
    (Cursor.pass store s).reads = s.ahead := by
  induction h with
  | @nil s hmore =>
    obtain ⟨hreads, hend⟩ := hasNext_reads store s
    have hlast : (Cursor.hasNext store s).state.ahead = [] := hend hmore
    rw [Cursor.reads_pass_nil hmore, ← hreads]
    show _ = _ ++ (Cursor.hasNext store s).state.ahead
    rw [hlast, List.append_nil]
    rfl
  | @cons s row rows hmore hrow _ ih =>
    rw [Cursor.reads_pass_cons hmore hrow, ih]
    have hnext : (Cursor.next store (Cursor.hasNext store s).state).reads ++
        (Cursor.next store (Cursor.hasNext store s).state).state.ahead =
          (Cursor.hasNext store s).state.ahead := next_reads store _
    rw [hnext]
    exact (hasNext_reads store s).1

/-! ## Every pass of a scan without faults -/

section NoFaults

variable {store} {s₀ : Scan} {t : Table}

/-- At the first of all pages, a scan has all of them ahead. -/
theorem ahead_atFirst (s₀ : Scan) (t : Table) :
    (s₀.atFirst t).ahead = List.replicate t.pages.size s₀.table := by
  unfold ahead atFirst
  simp

/-- Wherever calls have led an open scan over a table without faults, going back and reading all rows
gives the rows of the table and costs the pages of the table. -/
theorem rescans (hfits : s₀.Fits store) (hfaults : ∀ page, (s₀.table, page) ∉ store.faults)
    (ht : store.table s₀.table = .ok t) {s : Scan}
    (hs : Cursor.Playing (profile store s₀).shows s) (x : TableId) :
    Cursor.Rescans store x (t.rows.map (rebound s₀.schema))
      ((List.replicate t.pages.size s₀.table).count x) s := by
  have hplays := plays hfits (opening_of_no_faults hfaults ht)
  have hredrains := hplays.redrains hs
  refine ⟨hredrains, fun u hu => ?_⟩
  obtain ⟨_, hrewind, hdrain, -⟩ := ok_of_bind (hredrains u hu)
  obtain ⟨script, p, rfl, -, -⟩ := hplays.playing_of_reaches hs hu
  have hback : Cursor.rewind store { s₀ with position := some p } =
      { result := .ok (), state := s₀.atFirst t } := rewind_eq ht rfl
  rw [pass_reads (Cursor.gives_of_drain hdrain), hback, ahead_atFirst, List.count_nil, Nat.zero_add]

/-- So it is at the first of all pages. -/
theorem rescans_atFirst (hfits : s₀.Fits store) (hfaults : ∀ page, (s₀.table, page) ∉ store.faults)
    (ht : store.table s₀.table = .ok t) (x : TableId) :
    Cursor.Rescans store x (t.rows.map (rebound s₀.schema))
      ((List.replicate t.pages.size s₀.table).count x) (s₀.atFirst t) :=
  rescans hfits hfaults ht ⟨_, _, rfl, rfl, by rintro row ⟨⟩⟩ x

/-- Starting a scan costs nothing. -/
theorem start_begins (hfits : s₀.Fits store) (hfaults : ∀ page, (s₀.table, page) ∉ store.faults)
    (ht : store.table s₀.table = .ok t) (x : TableId) :
    Cursor.Begins store x (t.rows.map (rebound s₀.schema))
      ((List.replicate t.pages.size s₀.table).count x) Cursor.start s₀ := by
  rintro s₀ _ rfl hok
  cases hp : s₀.position with
  | none =>
    rw [show Cursor.start store s₀ = _ from start_eq ht hp]
    exact ⟨rfl, rescans_atFirst hfits hfaults ht x, rfl⟩
  | some p =>
    -- an open scan refuses to be started
    obtain ⟨kind, hres, -⟩ := guarded.start (by simp [hp] : s₀.position.isSome = true)
    rw [hres] at hok
    cases hok

/-- Rewinding a scan costs nothing. -/
theorem rewind_begins (hfits : s₀.Fits store) (hfaults : ∀ page, (s₀.table, page) ∉ store.faults)
    (ht : store.table s₀.table = .ok t) (x : TableId) :
    Cursor.Begins store x (t.rows.map (rebound s₀.schema))
      ((List.replicate t.pages.size s₀.table).count x) Cursor.rewind s₀ := by
  rintro s₀ _ rfl hok
  cases hp : s₀.position with
  | none =>
    -- a closed scan refuses to be rewound
    obtain ⟨kind, hres, -⟩ := guarded.rewind (by simp [hp] : s₀.position.isSome = false)
    rw [hres] at hok
    cases hok
  | some p =>
    rw [show Cursor.rewind store s₀ = _ from rewind_eq ht (by simp [hp])]
    exact ⟨rfl, rescans_atFirst hfits hfaults ht x, rfl⟩

end NoFaults

end RowStream.Scan
