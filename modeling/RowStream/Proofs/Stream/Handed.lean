import RowStream.Proofs.Store.Growth
import RowStream.Proofs.Stream.Scan

/-!
# `RowStream.Proofs.Stream.Handed` — a scan of a table that changes meanwhile

A scan notes at its start how many pages the table has and reads them one by one, while others add
rows and tables and make pages unreadable and readable again. Only the last of the noted pages can
get rows in the meantime, and what the scan has read by then is what it hands out. So the rows that
it hands out are at every moment the first rows of the table, in their order.

## Contents
- `Handed` — what may happen between and during the calls of a scan, and what it hands out.
- `Amid`, `Amid.later`, `Amid.load`, `Amid.take` — the invariant, when the table grows, when a page
  is read, and when a row is taken.
- `Amid.hasNext_cases`, `Amid.next_cases` — what one call does.
- `amid_of_handed` — the invariant holds in every run.
- `Delivered`, `Amid.delivered`, `delivered_of_handed` — what holds of the rows that were handed
  out.
-/

namespace RowStream.Scan

open Call

/-- What may happen to a store and to a scan that was started over the store `store₁` and left as
`s₁`, and the rows that it has handed out since then. A call that fails hands out nothing. -/
inductive Handed (store₁ : PageStore) (s₁ : Scan) : PageStore → Scan → List Row → Prop where
  /-- Nothing has happened yet. -/
  | started : Handed store₁ s₁ store₁ s₁ []
  /-- Somebody changes the store, or reads it. -/
  | elapse {store store' : PageStore} {s : Scan} {out : List Row} :
    Handed store₁ s₁ store s out → PageStore.Step store store' → Handed store₁ s₁ store' s out
  /-- The scan is asked whether a row is left. -/
  | hasNext {store : PageStore} {s : Scan} {out : List Row} :
    Handed store₁ s₁ store s out →
      Handed store₁ s₁ (store.countReads (Cursor.hasNext store s).reads)
        (Cursor.hasNext store s).state out
  /-- The scan is asked for the next row. -/
  | next {store : PageStore} {s : Scan} {out : List Row} :
    Handed store₁ s₁ store s out →
      Handed store₁ s₁ (store.countReads (Cursor.next store s).reads)
        (Cursor.next store s).state (out ++ (Cursor.next store s).result.toOption.toList)

/-- The scan when it has noted `pages` pages, has read the first `k` and holds the rows `loaded`. -/
def reading (s₀ : Scan) (pages k : Nat) (loaded : List Row) : Scan :=
  { s₀ with position := some ⟨loaded, List.range' k (pages - k)⟩ }

/-- While a noted page is unread, page `k` is the next. -/
theorem reading_of_lt {s₀ : Scan} {pages k : Nat} (hk : k < pages) (loaded : List Row) :
    s₀.reading pages k loaded =
      { s₀ with position := some ⟨loaded, k :: List.range' (k + 1) (pages - (k + 1))⟩ } := by
  have hunread : List.range' k (pages - k) = k :: List.range' (k + 1) (pages - (k + 1)) := by
    rw [show pages - k = pages - (k + 1) + 1 by omega, List.range'_succ]
  rw [reading, hunread]

/-- Of the pages that the table `t₁` had at the start, the scan `s` has read the first `k`. It has
handed out the rows `taken`, up to their columns, and holds the rows `loaded`; `t` is the table now.
While a noted page is unread, the pages before it are full, so nothing was missed on them. -/
structure Amid (s₀ : Scan) (t₁ t : Table) (k : Nat) (taken loaded : List Row) (s : Scan) : Prop where
  /-- What is still to come. -/
  state_eq : s = s₀.reading t₁.pages.size k loaded
  /-- It reads no other pages. -/
  le_pages : k ≤ t₁.pages.size
  /-- The table has grown since the start. -/
  grown : t₁.Grows t
  /-- What was read are the first rows of the pages that were read. -/
  first : taken ++ loaded <+: t.rowsUpTo k
  /-- While pages are unread, it is all rows of the pages that were read. -/
  all : k < t₁.pages.size → taken ++ loaded = t.rowsUpTo k
  /-- The rows of the start are among them. -/
  old : t₁.rowsUpTo k <+: taken ++ loaded

/-- A page that cannot be read stays the next. -/
theorem load_of_error {store : PageStore} {table : TableId} {page : Nat} {unread : List Nat}
    {s : Scan} {e : StoreError} (h : store.readPage table page = .error e) :
    load table (page :: unread) store s =
      { result := .error (.storage e), state := { s with position := some ⟨[], page :: unread⟩ } } := by
  simp [load, bind, Call.bind, Call.modify, Call.readPage, h]

/-- A page with rows is loaded. -/
theorem load_of_ok {store : PageStore} {table : TableId} {page : Nat} {unread : List Nat} {s : Scan}
    {rows : Array Row} {row : Row} {rest : List Row} (h : store.readPage table page = .ok rows)
    (hrows : rows.toList = row :: rest) :
    load table (page :: unread) store s =
      { result := .ok true, state := { s with position := some ⟨row :: rest, unread⟩ },
        reads := [table] } := by
  simp [load, bind, Call.bind, Call.modify, Call.readPage, h, hrows, pure, Call.pure]

/-- Without a loaded row, looking for one is reading page `k`, while that page is unread. -/
theorem hasNext_of_lt {store : PageStore} {s₀ : Scan} {pages k : Nat} (hk : k < pages) :
    hasNext store (s₀.reading pages k []) =
      load s₀.table (k :: List.range' (k + 1) (pages - (k + 1))) store (s₀.reading pages k []) := by
  rw [reading_of_lt hk]
  simp [hasNext, bind, Call.bind, Call.get]

/-- A loaded row that fits the columns of the scan is handed out. -/
theorem take_of_loaded {store : PageStore} {s : Scan} {row : Row} {loaded : List Row}
    {unread : List Nat} (hp : s.position = some ⟨row :: loaded, unread⟩)
    (hrow : row.rebind s.schema = .ok (rebound s.schema row)) :
    take store s =
      { result := .ok (rebound s.schema row),
        state := { s with position := some ⟨loaded, unread⟩ } } := by
  simp [take, bind, Call.bind, Call.get, hp, Call.modify, Call.ofExcept, hrow]

namespace Amid

variable {s₀ s : Scan} {t₁ t t' : Table} {k : Nat} {taken loaded : List Row} {row : Row}
  {store : PageStore}

/-! ## What keeps the invariant -/

/-- Growth of the table keeps it. -/
theorem later (h : Amid s₀ t₁ t k taken loaded s) (hgrows : t.Grows t') :
    Amid s₀ t₁ t' k taken loaded s where
  state_eq := h.state_eq
  le_pages := h.le_pages
  grown := h.grown.trans hgrows
  first := h.first.trans (hgrows.rowsUpTo_prefix (Nat.le_trans h.le_pages h.grown.size_le))
  all hk := by
    have hfull : k < t.pages.size := Nat.lt_of_lt_of_le hk h.grown.size_le
    rw [hgrows.full k hfull]
    exact h.all hk
  old := h.old

/-- Reading the next page keeps it. -/
theorem load (h : Amid s₀ t₁ t k taken [] s) (hk : k < t₁.pages.size) {rows : List Row}
    (hrows : ∀ hk' : k < t.pages.size, t.pages[k].toList = rows) :
    Amid s₀ t₁ t (k + 1) taken rows (s₀.reading t₁.pages.size (k + 1) rows) := by
  have hk' : k < t.pages.size := Nat.lt_of_lt_of_le hk h.grown.size_le
  have hread : taken ++ rows = t.rowsUpTo (k + 1) := by
    have htaken := h.all hk
    rw [List.append_nil] at htaken
    rw [Table.rowsUpTo_succ hk', htaken, hrows hk']
  refine ⟨rfl, hk, h.grown, ?_, fun _ => hread, ?_⟩
  · exact Table.prefix_of_eq hread
  · rw [hread]
    exact h.grown.rowsUpTo_prefix hk

/-- Taking a row keeps it. -/
theorem take (h : Amid s₀ t₁ t k taken (row :: loaded) s) :
    Amid s₀ t₁ t k (taken ++ [row]) loaded (s₀.reading t₁.pages.size k loaded) := by
  have happend : taken ++ [row] ++ loaded = taken ++ row :: loaded := by simp
  refine ⟨rfl, h.le_pages, h.grown, ?_, ?_, ?_⟩
  · rw [happend]
    exact h.first
  · rw [happend]
    exact h.all
  · rw [happend]
    exact h.old

/-! ## The calls -/

/-- A call looks for a row: it fails at an unreadable page, or all pages are read, or a row is loaded
afterwards. Only in the last case anything is different afterwards. -/
theorem hasNext_cases (h : Amid s₀ t₁ t k taken loaded s) (ht : store.table s₀.table = .ok t)
    (hplaced : t.Placed) :
    (∃ page, page < t₁.pages.size ∧ (s₀.table, page) ∈ store.faults ∧
      (hasNext store s).result = .error (.storage (.readFailed page s₀.table)) ∧
      (hasNext store s).state = s) ∨
    ((hasNext store s).result = .ok false ∧ (hasNext store s).state = s ∧ k = t₁.pages.size ∧
      loaded = []) ∨
    ((hasNext store s).result = .ok true ∧ ∃ k' row loaded',
      Amid s₀ t₁ t k' taken (row :: loaded') (hasNext store s).state) := by
  cases loaded with
  | cons row rest =>
    right; right
    obtain rfl := h.state_eq
    exact ⟨rfl, k, row, rest, h⟩
  | nil =>
    obtain rfl := h.state_eq
    rcases Nat.lt_or_eq_of_le h.le_pages with hk | rfl
    · -- the scan is about to read page `k`
      have hk' : k < t.pages.size := Nat.lt_of_lt_of_le hk h.grown.size_le
      rw [hasNext_of_lt hk]
      by_cases hfault : (s₀.table, k) ∈ store.faults
      · have hread : store.readPage s₀.table k = .error (.readFailed k s₀.table) := by
          unfold PageStore.readPage
          rw [if_pos hfault]
        rw [load_of_error hread]
        exact .inl ⟨k, hk, hfault, rfl, (reading_of_lt hk []).symm⟩
      · have hread := PageStore.readPage_of_no_fault hfault ht hk'
        have hne := hplaced.page_ne_nil (Array.getElem?_eq_getElem hk')
        cases hrows : t.pages[k].toList with
        | nil => exact absurd hrows hne
        | cons row rest =>
          rw [load_of_ok hread hrows]
          exact .inr (.inr ⟨rfl, k + 1, row, rest, h.load hk fun _ => hrows⟩)
    · right; left
      have hend : s₀.reading t₁.pages.size t₁.pages.size [] = { s₀ with position := some ⟨[], []⟩ } := by
        simp [reading]
      rw [hend]
      exact ⟨rfl, rfl, rfl, rfl⟩

/-- A row that is loaded fits the columns of the scan. -/
theorem rebind_eq (h : Amid s₀ t₁ t k taken (row :: loaded) s) (hschema : s₀.schema.Agrees t.schema)
    (hfits : ∀ row ∈ t.rows, row.schema.Agrees t.schema) :
    row.rebind s₀.schema = .ok (rebound s₀.schema row) := by
  have hmem : row ∈ t.rows := by
    have hread : row ∈ taken ++ row :: loaded := List.mem_append_right _ List.mem_cons_self
    exact (t.rowsUpTo_prefix k).subset (h.first.subset hread)
  exact Row.rebind_eq_ok_iff.2 ⟨hschema.trans (hfits row hmem).symm, rfl⟩

/-- The next row is the next that was read. A call that fails changes nothing, and fails for the
reason for which looking for a row fails, or because all pages are read. -/
theorem next_cases (h : Amid s₀ t₁ t k taken loaded s) (ht : store.table s₀.table = .ok t)
    (hplaced : t.Placed) (hschema : s₀.schema.Agrees t.schema)
    (hfits : ∀ row ∈ t.rows, row.schema.Agrees t.schema) :
    (∃ e, (next store s).result = .error e ∧ (next store s).state = s ∧
      (e = .exhausted ∧ (hasNext store s).result = .ok false ∨
        (hasNext store s).result = .error e)) ∨
    ∃ k' row loaded', (next store s).result = .ok (rebound s₀.schema row) ∧
      Amid s₀ t₁ t k' (taken ++ [row]) loaded' (next store s).state := by
  unfold next
  rcases h.hasNext_cases ht hplaced with ⟨page, -, -, hres, hst⟩ | ⟨hres, hst, -, -⟩ |
    ⟨hres, k', row, loaded', hamid⟩
  · rw [bind_of_error hres]
    exact .inl ⟨_, rfl, hst, .inr hres⟩
  · rw [bind_of_ok hres]
    exact .inl ⟨_, rfl, hst, .inl ⟨rfl, hres⟩⟩
  · rw [bind_of_ok hres]
    have hrow := hamid.rebind_eq hschema hfits
    rw [hamid.state_eq]
    simp only [if_true]
    rw [take_of_loaded (s := s₀.reading t₁.pages.size k' (row :: loaded')) rfl hrow]
    exact .inr ⟨k', row, loaded', rfl, hamid.take⟩

end Amid

/-! ## Runs -/

variable {store₀ store₁ store : PageStore} {s₀ s : Scan} {t₁ : Table} {out : List Row}

/-- A closed scan of a table that is there starts before the first page. -/
theorem amid_of_start (hclosed : s₀.position = none) (ht : store.table s₀.table = .ok t₁) :
    (start store s₀).result = .ok () ∧ Amid s₀ t₁ t₁ 0 [] [] (start store s₀).state := by
  rw [start_eq ht hclosed]
  refine ⟨rfl, ?_, Nat.zero_le _, .refl t₁, List.nil_prefix, fun _ => rfl, List.nil_prefix⟩
  unfold atFirst
  rw [List.range_eq_range']
  rfl

/-- Whatever happens, the scan stays amid the table as it is by then. -/
theorem amid_of_handed (hstore : store₁.Reached) (ht : store₁.table s₀.table = .ok t₁)
    (hclosed : s₀.position = none) (hschema : s₀.schema.Agrees t₁.schema)
    (h : Handed store₁ (start store₁ s₀).state store s out) :
    store.Reached ∧ ∃ t k taken loaded, store.table s₀.table = .ok t ∧
      Amid s₀ t₁ t k taken loaded s ∧ out = taken.map (rebound s₀.schema) := by
  induction h with
  | started => exact ⟨hstore, t₁, 0, [], [], ht, (amid_of_start hclosed ht).2, rfl⟩
  | elapse _ hstep ih =>
    obtain ⟨hreached, t, k, taken, loaded, ht, hamid, rfl⟩ := ih
    obtain ⟨t', ht', hgrows⟩ := hstep.grows ht
    exact ⟨hreached.step hstep, t', k, taken, loaded, ht', hamid.later hgrows, rfl⟩
  | @hasNext store s out _ ih =>
    obtain ⟨hreached, t, k, taken, loaded, ht, hamid, rfl⟩ := ih
    have hcount : PageStore.Step store (store.countReads (Cursor.hasNext store s).reads) :=
      .countReads store _
    obtain ⟨t', ht', hgrows⟩ := hcount.grows ht
    refine ⟨hreached.step hcount, t', ?_⟩
    rcases hamid.hasNext_cases ht (PageStore.placed_of_reached hreached ht) with
      ⟨-, -, -, -, hst⟩ | ⟨-, hst, -, -⟩ | ⟨-, k', row, loaded', hamid'⟩
    · rw [show (Cursor.hasNext store s).state = s from hst]
      exact ⟨k, taken, loaded, ht', hamid.later hgrows, rfl⟩
    · rw [show (Cursor.hasNext store s).state = s from hst]
      exact ⟨k, taken, loaded, ht', hamid.later hgrows, rfl⟩
    · exact ⟨k', taken, row :: loaded', ht', hamid'.later hgrows, rfl⟩
  | @next store s out _ ih =>
    obtain ⟨hreached, t, k, taken, loaded, ht, hamid, rfl⟩ := ih
    have hcount : PageStore.Step store (store.countReads (Cursor.next store s).reads) :=
      .countReads store _
    obtain ⟨t', ht', hgrows⟩ := hcount.grows ht
    refine ⟨hreached.step hcount, t', ?_⟩
    have hfits := PageStore.sound_of_reached hreached t
      (Array.mem_of_getElem? (PageStore.table_eq_ok_iff.1 ht))
    rw [← hamid.grown.schema_eq] at hschema
    rcases hamid.next_cases ht (PageStore.placed_of_reached hreached ht) hschema hfits with
      ⟨e, hres, hst, -⟩ | ⟨k', row, loaded', hres, hamid'⟩
    · rw [show (Cursor.next store s).state = s from hst,
        show (Cursor.next store s).result = .error e from hres]
      exact ⟨k, taken, loaded, ht', hamid.later hgrows, by simp [Except.toOption]⟩
    · rw [show (Cursor.next store s).result = _ from hres]
      exact ⟨k', taken ++ [row], loaded', ht', hamid'.later hgrows, by simp [Except.toOption]⟩

/-- What holds of the rows `out` that the scan `s` has handed out under the columns `schema`, where
`t₁` is the table at its start and `t` the table now. -/
structure Delivered (t₁ t : Table) (schema : Schema) (store : PageStore) (s : Scan)
    (out : List Row) : Prop where
  /-- The rows of the start are still the first. -/
  grown : t₁.rows <+: t.rows
  /-- The scan has handed out the first rows of the table, in their order. -/
  first : out = (t.rows.take out.length).map (rebound schema)
  /-- Each of them remembers its place, which lies on a page that was there at the start. -/
  placed : ∀ row ∈ out, ∃ place rows stored, row.recordId = some place ∧
    place.page < t₁.pages.size ∧ t.pages[place.page]? = some rows ∧
    rows[place.slot]? = some stored ∧ row = rebound schema stored
  /-- It is at its end only when the rows of the start are handed out. -/
  finished : (Cursor.hasNext store s).result = .ok false → t₁.rows.length ≤ out.length
  /-- Looking for a row fails only at an unreadable page, and then changes nothing. -/
  hasNext_failed : ∀ e, (Cursor.hasNext store s).result = .error e →
    (Cursor.hasNext store s).state = s ∧ ∃ page, page < t₁.pages.size ∧
      e = .storage (.readFailed page s.table) ∧ (s.table, page) ∈ store.faults
  /-- Taking a row fails only where looking for it does, or at the end, and then changes nothing. -/
  next_failed : ∀ e, (Cursor.next store s).result = .error e →
    (Cursor.next store s).state = s ∧
      (e = .exhausted ∧ (Cursor.hasNext store s).result = .ok false ∨
        (Cursor.hasNext store s).result = .error e)
  /-- Without unreadable pages, the next row of the start is handed out next. -/
  resumed : (∀ page, (s.table, page) ∉ store.faults) → out.length < t₁.rows.length →
    ∃ row, t.rows[out.length]? = some row ∧ (Cursor.next store s).result = .ok (rebound schema row)

namespace Amid

variable {t : Table} {k : Nat} {taken loaded : List Row}

/-- The first rows of the pages that were read are the first rows of the table. -/
theorem taken_eq (h : Amid s₀ t₁ t k taken loaded s) : taken = t.rows.take taken.length :=
  List.prefix_iff_eq_take.1
    (((List.prefix_append taken loaded).trans h.first).trans (t.rowsUpTo_prefix k))

/-- The row that was taken last comes right behind those that were taken before. -/
theorem getElem?_of_taken {row : Row} (h : Amid s₀ t₁ t k (taken ++ [row]) loaded s) :
    t.rows[taken.length]? = some row := by
  have htaken := h.taken_eq
  have hlen : (taken ++ [row]).length = taken.length + 1 := by simp
  have hlast : (taken ++ [row])[taken.length]? = some row := by simp
  rw [htaken, hlen, List.getElem?_take_of_lt (Nat.lt_succ_self _)] at hlast
  exact hlast

/-- A row that was handed out lies on a page that was there at the start. -/
theorem place_of_mem {row : Row} (h : Amid s₀ t₁ t k taken loaded s) (hplaced : t.Placed)
    (hrow : row ∈ taken) :
    ∃ (place : RecordId) (rows : Array Row), row.recordId = some place ∧
      place.page < t₁.pages.size ∧ t.pages[place.page]? = some rows ∧
      rows[place.slot]? = some row := by
  have hread : row ∈ t.rowsUpTo k := h.first.subset (List.mem_append_left _ hrow)
  obtain ⟨page, hpage, hlt, hmem⟩ := Table.mem_rowsUpTo hread
  obtain ⟨slot, hslot⟩ := List.mem_iff_getElem?.1 hmem
  rw [Array.getElem?_toList] at hslot
  have hpages : t.pages[page]? = some t.pages[page] := Array.getElem?_eq_getElem hpage
  exact ⟨⟨page, slot⟩, t.pages[page], hplaced.recordId_eq hpages hslot,
    Nat.lt_of_lt_of_le hlt h.le_pages, hpages, hslot⟩

/-- Once all noted pages are read and their rows are taken, the rows of the start are among them. -/
theorem length_le_of_end (h : Amid s₀ t₁ t k taken loaded s) (ht : store.table s₀.table = .ok t)
    (hplaced : t.Placed) (hfalse : (hasNext store s).result = .ok false) :
    t₁.rows.length ≤ taken.length := by
  rcases h.hasNext_cases ht hplaced with ⟨_, _, _, hres, _⟩ | ⟨-, -, rfl, rfl⟩ | ⟨hres, -⟩
  · cases hres.symm.trans hfalse
  · have hold := h.old
    rw [Table.rowsUpTo_size, List.append_nil] at hold
    exact hold.length_le
  · cases hres.symm.trans hfalse

/-- Looking for a row fails only at an unreadable page. -/
theorem fault_of_error (h : Amid s₀ t₁ t k taken loaded s) (ht : store.table s₀.table = .ok t)
    (hplaced : t.Placed) {e : StreamError} (he : (hasNext store s).result = .error e) :
    (hasNext store s).state = s ∧ ∃ page, page < t₁.pages.size ∧
      e = .storage (.readFailed page s₀.table) ∧ (s₀.table, page) ∈ store.faults := by
  rcases h.hasNext_cases ht hplaced with ⟨page, hlt, hfault, hres, hst⟩ | ⟨hres, -⟩ | ⟨hres, -⟩
  · cases hres.symm.trans he
    exact ⟨hst, page, hlt, rfl, hfault⟩
  · cases hres.symm.trans he
  · cases hres.symm.trans he

/-- What holds of the rows that were handed out, at any moment of a run. -/
theorem delivered (h : Amid s₀ t₁ t k taken loaded s) (ht : store.table s₀.table = .ok t)
    (hplaced : t.Placed) (hschema : s₀.schema.Agrees t.schema)
    (hfits : ∀ row ∈ t.rows, row.schema.Agrees t.schema) :
    Delivered t₁ t s₀.schema store s (taken.map (rebound s₀.schema)) := by
  have htable : s.table = s₀.table := by
    rw [h.state_eq]
    rfl
  have hnext := h.next_cases ht hplaced hschema hfits
  constructor
  case grown => exact h.grown.rows_prefix
  case first => rw [List.length_map, ← h.taken_eq]
  case placed =>
    intro row hrow
    obtain ⟨stored, hstored, rfl⟩ := List.mem_map.1 hrow
    obtain ⟨place, rows, hplace, hlt, hrows, hslot⟩ := h.place_of_mem hplaced hstored
    exact ⟨place, rows, stored, hplace, hlt, hrows, hslot, rfl⟩
  case finished =>
    intro hfalse
    rw [List.length_map]
    exact h.length_le_of_end ht hplaced hfalse
  case hasNext_failed =>
    intro e he
    rw [htable]
    exact h.fault_of_error ht hplaced he
  case next_failed =>
    intro e he
    rcases hnext with ⟨e', hres, hst, hwhy⟩ | ⟨_, _, _, hres, _⟩
    · cases hres.symm.trans he
      exact ⟨hst, hwhy⟩
    · cases hres.symm.trans he
  case resumed =>
    intro hfaults hlt
    rw [List.length_map] at hlt ⊢
    rw [htable] at hfaults
    rcases hnext with ⟨e, -, -, ⟨-, hfalse⟩ | herror⟩ | ⟨k', row, loaded', hres, hamid⟩
    · exact absurd (h.length_le_of_end ht hplaced hfalse) (Nat.not_le.2 hlt)
    · obtain ⟨-, page, -, -, hfault⟩ := h.fault_of_error ht hplaced herror
      exact absurd hfault (hfaults page)
    · exact ⟨row, hamid.getElem?_of_taken, hres⟩

end Amid

/-- A scan of a table in a store that can come about starts, and whatever happens to the store from
then on, the scan hands out the rows of the table one after the other: all that were there at its
start, perhaps some that came to the last page since then, and none of a later page. -/
theorem delivered_of_handed {table : TableId} {qualifier : String} (hstore : store₀.Reached)
    (hmake : make store₀ table qualifier = .ok s₀)
    (hlater : Relation.ReflTransGen PageStore.Step store₀ store₁)
    (h : Handed store₁ (Cursor.start store₁ s₀).state store s out) :
    (Cursor.start store₁ s₀).result = .ok () ∧
      ∃ t₁ t, store₁.table table = .ok t₁ ∧ store.table table = .ok t ∧
        Delivered t₁ t (t.schema.qualify qualifier) store s out := by
  obtain ⟨rfl, hclosed, t₀, ht₀, hschema₀⟩ := of_make hmake
  obtain ⟨t₁, ht₁, hgrows⟩ := PageStore.grows_of_later hlater ht₀
  have hschema₁ : s₀.schema.Agrees t₁.schema := by
    rw [hschema₀, hgrows.schema_eq]
    exact t₀.schema.qualify_agrees qualifier
  obtain ⟨hreached, t, k, taken, loaded, ht, hamid, rfl⟩ :=
    amid_of_handed (hstore.later hlater) ht₁ hclosed hschema₁ h
  have hschema : t.schema.qualify qualifier = s₀.schema := by
    rw [hschema₀, hamid.grown.schema_eq, hgrows.schema_eq]
  have hagrees : s₀.schema.Agrees t.schema := by
    rw [hamid.grown.schema_eq]
    exact hschema₁
  have hfits := PageStore.sound_of_reached hreached t
    (Array.mem_of_getElem? (PageStore.table_eq_ok_iff.1 ht))
  refine ⟨(amid_of_start hclosed ht₁).1, t₁, t, ht₁, ht, ?_⟩
  rw [hschema]
  exact hamid.delivered ht (PageStore.placed_of_reached hreached ht) hagrees hfits

/-- A row of one integer. -/
def integerRow (n : Int64) : Row := { schema := .ofTypes [.int], cells := [some (.int n)] }

/-- A table of one column with pages of two rows, of which three are there. -/
def integerStore : PageStore :=
  (((PageStore.empty 2).createTable "column" (.ofTypes [.int])).2.insertAll ⟨0⟩
    [integerRow 1, integerRow 2, integerRow 3]).2

/-- While a scan takes the rows 1 and 2, a row 4 comes to the last page and that page becomes
unreadable; once it is readable again, the scan takes 3 and 4, and not the 5 that has come to a new
page. -/
theorem delivered_of_integers :
    ∃ s₀ store s out t₁ t, integerStore.Reached ∧ make integerStore ⟨0⟩ "a" = .ok s₀ ∧
      Handed integerStore (Cursor.start integerStore s₀).state store s out ∧
      out.map Row.cells = [[some (.int 1)], [some (.int 2)], [some (.int 3)], [some (.int 4)]] ∧
      Delivered t₁ t (t.schema.qualify "a") store s out := by
  have hreached : integerStore.Reached :=
    (PageStore.Reached.step (.empty 2) (.createTable _ _ _)).insertAll _ _
  have hmake : make integerStore ⟨0⟩ "a" = .ok _ := rfl
  have hstarted : ∀ s₁ : Scan, Handed integerStore s₁ integerStore s₁ [] := fun _ => .started
  have h₁ := (hstarted (Cursor.start integerStore
    ⟨⟨0⟩, "a", (Schema.ofTypes [.int]).qualify "a", none⟩).state).next
  have h₂ := (h₁.elapse (.insert (rfl : PageStore.insert _ ⟨0⟩ (integerRow 4) = .ok _))).elapse
    (.failPage _ ⟨0⟩ 1)
  have h₃ := h₂.next.hasNext.next
  have h₄ := (h₃.elapse (.clearFaults _)).elapse
    (.insert (rfl : PageStore.insert _ ⟨0⟩ (integerRow 5) = .ok _))
  have h₅ := h₄.next.next.next
  obtain ⟨-, t₁, t, -, -, hdelivered⟩ := delivered_of_handed hreached hmake .refl h₅
  exact ⟨_, _, _, _, t₁, t, hreached, hmake, h₅, by decide, hdelivered⟩

end RowStream.Scan
