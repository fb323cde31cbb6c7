import RowStream.Proofs.Row.Conforms
import RowStream.Proofs.Store.Sound
import RowStream.Proofs.Stream.Keeps
import RowStream.Proofs.Stream.Profile
import RowStream.Stream.Scan

/-!
# `RowStream.Proofs.Stream.Scan` — the profile of a scan

While the store stays as it is, a scan gives the rows of the pages that the table has, up to the
first page that cannot be read; there it breaks off, and every further call tries that page again.

## Contents
- `Scan.pagesScript`, `Scan.Position.script` — what is still to come of a scan.
- `Scan.of_make` — the scan that is made of a table.
- `Scan.Fits`, `Scan.WellSet` — the stored rows fit the columns of the scan, and why they do.
- `load_plays`, `hasNext_plays`, `next_plays` — the calls of an open scan.
- `start_eq`, `rewind_eq` — going to the first row of a table that is there.
- `profile_congr`, `opening_of_no_faults` — only what is read of the store plays a part, and without
  faults a scan has all rows.
- `Scan.profile_holds` — the profile.
- `Scan.obeys`, `Scan.stays` — what every call keeps of a scan, and of the rows that it has loaded.
-/

namespace RowStream.Scan

open Call

variable {store : PageStore}

/-- A row under the columns of the scan. -/
def rebound (schema : Schema) (row : Row) : Row := { row with schema }

/-- The rows of pages that are read one by one, up to the first that cannot be read. -/
def pagesScript (store : PageStore) (table : TableId) (schema : Schema) : List Nat → Script
  | [] => ⟨[], none⟩
  | page :: unread =>
    match store.readPage table page with
    | .ok rows => (pagesScript store table schema unread).after (rows.toList.map (rebound schema))
    | .error e => ⟨[], some (.storage e)⟩

/-- What is still to come of an open scan. -/
def Position.script (store : PageStore) (table : TableId) (schema : Schema) (p : Position) : Script :=
  (pagesScript store table schema p.unread).after (p.loaded.map (rebound schema))

/-- The rows that can be read fit the columns of the scan. -/
def Fits (store : PageStore) (s : Scan) : Prop :=
  ∀ {page rows}, store.readPage s.table page = .ok rows → ∀ row ∈ rows.toList,
    s.schema.Agrees row.schema

/-- The table of a scan is there and has the columns of the scan. -/
def WellSet (store : PageStore) (s : Scan) : Prop :=
  ∃ columns, store.columns? s.table = some columns ∧ s.schema.Agrees columns

/-- A new scan is closed, and has the columns of its table under their full names. -/
theorem of_make {table : TableId} {qualifier : String} {s : Scan}
    (h : make store table qualifier = .ok s) :
    s.table = table ∧ s.position = none ∧
      ∃ t, store.table table = .ok t ∧ s.schema = t.schema.qualify qualifier := by
  unfold make at h
  cases ht : store.table table with
  | error e => simp [ht, bind, Except.bind] at h
  | ok t =>
    simp only [ht, bind, Except.bind, pure, Except.pure, Except.ok.injEq] at h
    subst h
    exact ⟨rfl, rfl, t, rfl, rfl⟩

/-- Over a sound store, the rows that a scan reads fit its columns. -/
theorem WellSet.fits {store : PageStore} (hstore : store.Sound) {s : Scan}
    (h : s.WellSet store) : s.Fits store := by
  obtain ⟨columns, hcolumns, hagrees⟩ := h
  intro page rows hread row hrow
  obtain ⟨t, ht, hmem, hrow'⟩ := PageStore.mem_rows_of_readPage hread hrow
  have htable := PageStore.columns?_of_table ht
  rw [hcolumns] at htable
  cases htable
  exact hagrees.trans (hstore t hmem row hrow').symm

/-- The scan `s₀` at a position from which `script` is still to come. -/
def At (store : PageStore) (s₀ : Scan) (script : Script) (p : Position) (s : Scan) : Prop :=
  s = { s₀ with position := some p } ∧ p.script store s₀.table s₀.schema = script ∧
    ∀ row ∈ p.loaded, s₀.schema.Agrees row.schema

/-! ## The calls of an open scan -/

section Open

variable {s₀ : Scan}

/-- Loading looks for the first row on the pages and keeps to their script. -/
theorem load_plays (hfits : s₀.Fits store) (unread : List Nat) (s : Scan)
    (hs : s.close = s₀.close) :
    let script := pagesScript store s₀.table s₀.schema unread
    (load s₀.table unread store s).result = script.hasNext ∧
      ∃ p, At store s₀ script p (load s₀.table unread store s).state ∧
        (script.hasNext = .ok true → p.loaded ≠ []) := by
  have hset : ∀ p, { s with position := some p } = { s₀ with position := some p } := by
    intro p
    exact congrArg (fun s : Scan => { s with position := some p }) hs
  induction unread generalizing s with
  | nil =>
    refine ⟨rfl, ⟨[], []⟩, ⟨hset _, rfl, ?_⟩, fun h => by cases h⟩
    rintro row ⟨⟩
  | cons page unread ih =>
    unfold load pagesScript
    simp only [Bind.bind, Call.bind, Call.modify, Call.readPage]
    cases hr : store.readPage s₀.table page with
    | error e =>
      refine ⟨rfl, ⟨[], page :: unread⟩, ⟨hset _, ?_, ?_⟩, fun h => by cases h⟩
      · simp [Position.script, pagesScript, hr, Script.after]
      · rintro row ⟨⟩
    | ok rows =>
      cases hl : rows.toList with
      | nil =>
        -- an empty page is passed over
        have hnext := ih { s with position := some ⟨[], page :: unread⟩ } hs hset
        simpa [hl, Script.after] using hnext
      | cons row loaded =>
        simp only [hl, Call.bind, Call.modify, Pure.pure, Call.pure]
        refine ⟨rfl, ⟨row :: loaded, unread⟩, ⟨hset _, ?_, ?_⟩, fun _ h => by cases h⟩
        · rfl
        · intro r hr'
          exact hfits hr r (hl ▸ hr')

/-- Looking for a row keeps to the script and loads a row if there is one. -/
theorem hasNext_plays (hfits : s₀.Fits store) {script : Script} {p : Position} {s : Scan}
    (hs : At store s₀ script p s) :
    (hasNext store s).result = script.hasNext ∧
      ∃ p, At store s₀ script p (hasNext store s).state ∧
        (script.hasNext = .ok true → p.loaded ≠ []) := by
  obtain ⟨rfl, rfl, hagree⟩ := hs
  obtain ⟨loaded, unread⟩ := p
  cases loaded with
  | nil => exact load_plays hfits unread _ rfl
  | cons row loaded =>
    exact ⟨rfl, ⟨row :: loaded, unread⟩, ⟨rfl, rfl, hagree⟩, fun _ h => by cases h⟩

/-- The next row is the first of the script. -/
theorem next_plays (hfits : s₀.Fits store) {script : Script} {p : Position} {s : Scan}
    (hs : At store s₀ script p s) :
    (next store s).result = script.next ∧ ∃ p, At store s₀ script.tail p (next store s).state := by
  obtain ⟨hres, ⟨loaded, unread⟩, ⟨hst, hscript, hagree⟩, hloaded⟩ := hasNext_plays hfits hs
  obtain ⟨rows, failure⟩ := script
  unfold next
  cases rows with
  | nil =>
    cases failure with
    | none =>
      rw [bind_of_ok (a := false) hres]
      exact ⟨rfl, _, hst, hscript, hagree⟩
    | some e =>
      rw [bind_of_error (e := e) hres]
      exact ⟨rfl, _, hst, hscript, hagree⟩
  | cons row rows =>
    cases loaded with
    | nil => exact absurd rfl (hloaded rfl)
    | cons stored loaded =>
      rw [bind_of_ok (a := true) hres]
      simp only [if_true, hst]
      -- the row that is taken is the first of the script
      have hrow : rebound s₀.schema stored = row ∧
          (Position.script store s₀.table s₀.schema ⟨loaded, unread⟩) = ⟨rows, failure⟩ := by
        unfold Position.script Script.after at hscript ⊢
        simp only [List.map_cons, List.cons_append, Script.mk.injEq, List.cons.injEq] at hscript ⊢
        exact ⟨hscript.1.1, hscript.1.2, hscript.2⟩
      -- it fits the columns of the scan
      have hrebind : stored.rebind s₀.schema = .ok row :=
        Row.rebind_eq_ok_iff.2 ⟨hagree stored List.mem_cons_self, hrow.1.symm⟩
      refine ⟨?_, ⟨loaded, unread⟩, ?_, hrow.2, fun r hr => hagree r (List.mem_cons_of_mem _ hr)⟩
      · simp [take, bind, Call.bind, Call.get, Call.modify, Call.ofExcept, hrebind, Script.next]
      · simp [take, bind, Call.bind, Call.get, Call.modify, Call.ofExcept]

end Open

/-! ## Going to the first row -/

section First

variable {s₀ : Scan} {t : Table}

/-- The scan at the first of all pages of its table. -/
def atFirst (s₀ : Scan) (t : Table) : Scan :=
  { s₀ with position := some ⟨[], List.range t.pages.size⟩ }

/-- A closed scan is started without reading anything. -/
theorem start_eq (ht : store.table s₀.table = .ok t) (hclosed : s₀.position = none) :
    start store s₀ = { result := .ok (), state := s₀.atFirst t } := by
  have hnum := PageStore.numPages_of_table ht
  simp [start, atFirst, bind, Call.bind, Call.get, Call.modify, Call.numPages, hnum, hclosed]

/-- An open scan goes back without reading anything. -/
theorem rewind_eq (ht : store.table s₀.table = .ok t) (hopen : s₀.position.isSome = true) :
    rewind store s₀ = { result := .ok (), state := s₀.atFirst t } := by
  have hclosed : ¬ s₀.position.isNone = true := by
    cases hp : s₀.position <;> simp_all
  have hstart : start store s₀.close = { result := .ok (), state := s₀.close.atFirst t } :=
    start_eq ht rfl
  unfold rewind
  rw [bind_of_ok (c := Call.get) (a := s₀) rfl]
  show ((if s₀.position.isNone then _ else Call.modify close >>= fun _ => start : Call Scan Unit)
    store s₀) = _
  rw [if_neg hclosed, bind_of_ok (c := Call.modify close) (a := ()) rfl]
  exact hstart

end First

/-! ## The profile -/

/-- A scan starts with the pages that the table has. -/
def profile (store : PageStore) (s₀ : Scan) : Profile Scan where
  schema := s₀.schema
  opening := do
    let pages ← (store.numPages s₀.table).mapError .storage
    return pagesScript store s₀.table s₀.schema (List.range pages)
  own s := s.close = s₀.close
  resting s := s = s₀.close
  closed s := s = s₀.close
  shows script s := ∃ p, At store s₀ script p s

/-- From a closed scan, a start leads to the script of all pages. -/
theorem start_plays (store : PageStore) (s₀ : Scan) :
    match (profile store s₀).opening with
    | .ok full => (start store s₀.close).result = .ok () ∧
        (profile store s₀).shows full (start store s₀.close).state
    | .error e => (start store s₀.close).result = .error e ∧
        (start store s₀.close).state = s₀.close := by
  unfold profile start
  simp only [bind, Call.bind, Call.get, Call.numPages, close, Option.isSome_none, Bool.false_eq_true,
    if_false]
  cases store.numPages s₀.table with
  | error e => exact ⟨rfl, rfl⟩
  | ok pages =>
    refine ⟨rfl, ⟨[], List.range pages⟩, rfl, ?_, ?_⟩
    · simp [Position.script, Script.after]
    · rintro row ⟨⟩

theorem plays {s₀ : Scan} (hfits : s₀.Fits store) {full : Script}
    (hfull : (profile store s₀).opening = .ok full) :
    Cursor.Plays store s₀.schema full (profile store s₀).shows where
  schema_eq := by
    rintro script s ⟨p, rfl, -, -⟩
    rfl
  hasNext := by
    rintro script s ⟨p, hs⟩
    obtain ⟨hres, p', hs', -⟩ := hasNext_plays hfits hs
    exact ⟨hres, p', hs'⟩
  next := by
    rintro script s ⟨p, hs⟩
    exact next_plays hfits hs
  rewind := by
    rintro script s ⟨p, rfl, -, -⟩
    have hstart := start_plays store s₀
    rw [hfull] at hstart
    exact hstart

/-- A scan refuses calls in the wrong state. -/
theorem guarded : Cursor.Guarded store fun s : Scan => s.position.isSome where
  start := by
    intro s hs
    have hstart : start store s =
        { result := .error (.usage (.alreadyOpen .scan)), state := s } := by
      simp [start, bind, Call.bind, Call.get, Call.fail, Call.ofExcept, hs]
    exact ⟨.scan, congrArg Outcome.result hstart, congrArg Outcome.state hstart⟩
  hasNext := by
    rintro ⟨table, qualifier, schema, _ | position⟩ hs
    · exact ⟨.scan, rfl, rfl⟩
    · cases hs
  next := by
    rintro ⟨table, qualifier, schema, _ | position⟩ hs
    · exact ⟨.scan, rfl, rfl⟩
    · cases hs
  rewind := by
    rintro ⟨table, qualifier, schema, _ | position⟩ hs
    · exact ⟨.scan, rfl, rfl⟩
    · cases hs

/-- A scan over rows that fit its columns is as its profile says. -/
theorem profile_holds {s₀ : Scan} (hfits : s₀.Fits store) : (profile store s₀).Holds store where
  own_of_resting := by
    rintro s rfl
    rfl
  resting_of_closed := id
  own_of_shows := by
    rintro script s ⟨p, rfl, -, -⟩
    rfl
  schema_eq := fun hs => (congrArg schema hs : _)
  close := id
  start := by
    rintro s rfl
    have hstart := start_plays store s₀
    cases hopening : (profile store s₀).opening with
    | ok full =>
      rw [hopening] at hstart
      rw [show (Cursor.start store s₀.close).result = _ from hstart.1]
      exact ⟨full, rfl, hstart.2⟩
    | error e =>
      rw [hopening] at hstart
      rw [show (Cursor.start store s₀.close).result = _ from hstart.1]
      exact ⟨rfl, hstart.2⟩
  start_refused := by
    intro s hown hclosed
    -- only an open scan is not closed
    cases hp : s.position with
    | none =>
      have hclose : s.close = s := by
        unfold Scan.close
        rw [← hp]
      exact absurd (hclose.symm.trans hown) hclosed
    | some p =>
      obtain ⟨kind, hres, hst⟩ := guarded.start (s := s) (by simp [hp] : s.position.isSome = true)
      rintro _ rfl
      rw [hres, hst]
      exact ⟨hown, id⟩
  start_open := by
    rintro script s ⟨p, rfl, -, -⟩
    exact guarded.start rfl
  hasNext_resting := by
    rintro s rfl
    exact guarded.hasNext rfl
  next_resting := by
    rintro s rfl
    exact guarded.next rfl
  rewind_resting := by
    rintro s rfl
    exact guarded.rewind rfl
  plays := fun hfull => plays hfits hfull

/-- Only what is read of the store plays a part. -/
theorem profile_congr {store' : PageStore} (h : store.ReadsLike store') (s : Scan) :
    profile store' s = profile store s := by
  have hpages : ∀ pages, pagesScript store' s.table s.schema pages =
      pagesScript store s.table s.schema pages := by
    intro pages
    induction pages with
    | nil => rfl
    | cons page unread ih =>
      unfold pagesScript
      rw [h.readPage_eq, ih]
  have hat : At store' s = At store s := by
    funext script p t
    unfold At Position.script
    rw [hpages]
  unfold profile
  rw [h.numPages_eq, hat]
  simp only [hpages]

/-- Without faults in its table, the script of a scan has all rows of the table. -/
theorem opening_of_no_faults {s : Scan} (hfaults : ∀ page, (s.table, page) ∉ store.faults)
    {t : Table} (ht : store.table s.table = .ok t) :
    (profile store s).opening = .ok ⟨t.rows.map (rebound s.schema), none⟩ := by
  -- the pages from any one on
  have hpages : ∀ pages : List (Array Row), ∀ first,
      (∀ i, (h : i < pages.length) → store.readPage s.table (first + i) = .ok pages[i]) →
      pagesScript store s.table s.schema (List.range' first pages.length) =
        ⟨(pages.flatMap Array.toList).map (rebound s.schema), none⟩ := by
    intro pages
    induction pages with
    | nil =>
      intro first _
      rfl
    | cons page pages ih =>
      intro first h
      rw [List.length_cons, List.range'_succ, pagesScript]
      have hpage : store.readPage s.table first = .ok page := h 0 (by simp)
      rw [hpage, ih (first + 1) fun i hi => ?_]
      · simp [Script.after]
      · have hrest := h (i + 1) (by simpa using hi)
        rw [show first + 1 + i = first + (i + 1) by omega]
        exact hrest
  have hnum := PageStore.numPages_of_table ht
  have hscript := hpages t.pages.toList 0 fun i hi => by
    rw [Nat.zero_add]
    exact PageStore.readPage_of_no_fault (hfaults i) ht (by simpa using hi)
  unfold profile
  rw [hnum]
  show Except.ok (pagesScript store s.table s.schema (List.range t.pages.size)) = _
  rw [List.range_eq_range']
  exact congrArg Except.ok hscript

/-! ## What no call changes -/

/-- The scan `s₀` at any position. -/
def Same (s₀ s : Scan) : Prop := s.close = s₀.close

section Obeys

variable {s₀ : Scan} {L P : Row → Prop} {F : StreamError → Prop}

/-- The scan `s₀`, with loaded rows of `L`. -/
def Carrying (L : Row → Prop) (s₀ s : Scan) : Prop :=
  s₀.Same s ∧ ∀ p ∈ s.position, ∀ row ∈ p.loaded, L row

/-- A scan may go to a position where the loaded rows are of `L`. -/
theorem Carrying.move {s : Scan} (h : Carrying L s₀ s) {loaded : List Row} (unread : List Nat)
    (hloaded : ∀ row ∈ loaded, L row) : Carrying L s₀ { s with position := some ⟨loaded, unread⟩ } := by
  refine ⟨h.1, fun p hp => ?_⟩
  cases hp
  exact hloaded

theorem start_carries (hF : ∀ e : StreamError, e.isTyping = false → F e) :
    Triple store (Carrying L s₀) start (fun _ => Carrying L s₀) (fun e s => F e ∧ Carrying L s₀ s) := by
  refine Triple.getBind fun s hs => ?_
  by_cases hopen : s.position.isSome
  · rw [if_pos hopen]
    exact Triple.fail fun _ ht => ⟨hF _ rfl, ht ▸ hs⟩
  · rw [if_neg hopen]
    refine Triple.bind (R := fun _ => Carrying L s₀) ?_ fun pages =>
      Triple.modify fun t ht => ht.move _ (by simp)
    intro t ht
    subst ht
    unfold Call.numPages
    cases hpages : store.numPages t.table with
    | ok pages => exact hs
    | error e => exact ⟨hF _ rfl, hs⟩

section Reading

variable (hread : ∀ {page rows}, store.readPage s₀.table page = .ok rows → ∀ row ∈ rows.toList, L row)
  (hF : ∀ e : StreamError, e.isTyping = false → F e)
include hread hF

theorem load_carries (unread : List Nat) :
    Triple store (Carrying L s₀) (load s₀.table unread) (fun _ => Carrying L s₀)
      (fun e s => F e ∧ Carrying L s₀ s) := by
  induction unread with
  | nil =>
    exact Triple.bind (R := fun _ => Carrying L s₀) (Triple.modify fun s hs => hs.move _ (by simp))
      fun _ => Triple.pure fun _ => id
  | cons page unread ih =>
    refine Triple.bind (R := fun _ => Carrying L s₀) (Triple.modify fun s hs => hs.move _ (by simp))
      fun _ => ?_
    -- a page that cannot be read is a matter of the store
    refine Triple.bind (R := fun rows s => (∀ row ∈ rows.toList, L row) ∧ Carrying L s₀ s) ?_
      fun rows => Triple.given fun hrows => ?_
    · intro s hs
      unfold readPage
      cases hpage : store.readPage s₀.table page with
      | ok rows => exact ⟨hread hpage, hs⟩
      | error e => exact ⟨hF _ rfl, hs⟩
    · cases hloaded : rows.toList with
      | nil => exact ih
      | cons row loaded =>
        rw [hloaded] at hrows
        exact Triple.bind (R := fun _ => Carrying L s₀) (Triple.modify fun s hs => hs.move _ hrows)
          fun _ => Triple.pure fun _ => id

theorem hasNext_carries : Triple store (Carrying L s₀) hasNext (fun _ => Carrying L s₀)
    (fun e s => F e ∧ Carrying L s₀ s) := by
  refine Triple.getBind fun s hs => ?_
  have htable : s.table = s₀.table := (congrArg table hs.1 : _)
  match s.position with
  | none => exact Triple.fail fun _ ht => ⟨hF _ rfl, ht ▸ hs⟩
  | some ⟨[], unread⟩ =>
    rw [htable]
    exact (load_carries hread hF unread).atState hs
  | some ⟨row :: loaded, unread⟩ => exact Triple.pure fun _ ht => ht ▸ hs

end Reading

/-- What comes of taking a loaded row, under the columns of the scan. -/
theorem take_carries (hok : ∀ row row', L row → row.rebind s₀.schema = .ok row' → P row')
    (herr : ∀ row e, L row → row.rebind s₀.schema = .error e → F (.data e))
    (hF : ∀ e : StreamError, e.isTyping = false → F e) :
    Triple store (Carrying L s₀) take (fun row s => P row ∧ Carrying L s₀ s)
      (fun e s => F e ∧ Carrying L s₀ s) := by
  refine Triple.getBind fun s hs => ?_
  have hschema : s.schema = s₀.schema := (congrArg schema hs.1 : _)
  match hp : s.position with
  | none => exact Triple.fail fun _ ht => ⟨hF _ rfl, ht ▸ hs⟩
  | some ⟨[], unread⟩ => exact Triple.fail fun _ ht => ⟨hF _ rfl, ht ▸ hs⟩
  | some ⟨row :: loaded, unread⟩ =>
    have hall := hs.2 _ hp
    have hrow := hall row List.mem_cons_self
    have hrest : ∀ r ∈ loaded, L r := fun r hr => hall r (List.mem_cons_of_mem _ hr)
    refine Triple.bind (R := fun _ => Carrying L s₀) (Triple.modify fun t ht => ht ▸ hs.move _ hrest)
      fun _ => ?_
    rw [hschema]
    cases hrebind : row.rebind s₀.schema with
    | ok row' => exact Triple.pure fun t ht => ⟨hok row row' hrow hrebind, ht⟩
    | error e => exact Triple.fail fun t ht => ⟨herr row e hrow hrebind, ht⟩

/-- What is known of the rows that a scan reads is known of those that it gives, as far as it does not
get lost under the columns of the scan. -/
theorem obeys
    (hread : ∀ {page rows}, store.readPage s₀.table page = .ok rows → ∀ row ∈ rows.toList, L row)
    (hok : ∀ row row', L row → row.rebind s₀.schema = .ok row' → P row')
    (herr : ∀ row e, L row → row.rebind s₀.schema = .error e → F (.data e))
    (hF : ∀ e : StreamError, e.isTyping = false → F e) : Cursor.Obeys store P F (Carrying L s₀) where
  start := start_carries hF
  reads := {
    weaken := id
    hasNext := hasNext_carries hread hF
    next := by
      refine Triple.bind (hasNext_carries hread hF) fun more => ?_
      cases more with
      | false => exact Triple.fail fun _ hs => ⟨hF _ rfl, hs⟩
      | true => exact take_carries hok herr hF
    rewind := by
      refine Triple.getBind fun s hs => ?_
      by_cases hopen : s.position.isNone
      · rw [if_pos hopen]
        exact Triple.fail fun _ ht => ⟨hF _ rfl, ht ▸ hs⟩
      · rw [if_neg hopen]
        refine Triple.bind (R := fun _ => Carrying L s₀) (Triple.modify fun t ht => ?_) fun _ =>
          start_carries hF
        rw [ht]
        exact ⟨hs.1, nofun⟩ }
  close := fun hs => ⟨hs.1, nofun⟩

end Obeys

/-- No call changes what a scan reads. -/
theorem stays (s₀ : Scan) : Cursor.Stays store s₀.Same := by
  have hobeys : Cursor.Obeys store (fun _ => True) (fun _ => True) (Carrying (fun _ => True) s₀) :=
    obeys (fun _ _ _ => trivial) (fun _ _ _ _ => trivial) (fun _ _ _ _ => trivial)
      (fun _ _ => trivial)
  exact (hobeys.congr fun s => ⟨fun hs => ⟨hs, fun _ _ _ _ => trivial⟩, And.left⟩).stays

end RowStream.Scan
