import RowStream.Proofs.Join.Fetches
import RowStream.Proofs.Stream.Pages
import RowStream.Proofs.Tree.Built

/-!
# `RowStream.Proofs.Tree.Pages` — the pages that a join of two tables is handed

Opening or rewinding a scan reads nothing, and every pass over a table without faults is handed each of
its pages once. So what a join of two tables adds to the counters of the store is the number of pages of
each table, as often as the join reads that side.

## Contents
- `Join.passes_rebound` — the names of columns play no part in the number of passes.
- `Stream.fetches_of_join` — what opening and rewinding a join of two tables costs, for any table.
- `Stream.pages_of_join` — what becomes of the counters of two different tables.
- `Stream.twoColumns`, `Stream.joinOfTwo` — a small store, and a join of its two tables.
-/

namespace RowStream

open Call Cursor

variable {store : PageStore}

/-- The columns under which rows stand play no part in the number of passes. -/
theorem Join.passes_rebound {σ τ : Type} [Cursor σ] [Cursor τ] (j : Join σ τ) (schema : Schema)
    (rows : List Row) : j.passes (rows.map (Scan.rebound schema)) = j.passes rows := by
  have hkey : ∀ field, (hasKey field) ∘ Scan.rebound schema = hasKey field := fun _ => rfl
  unfold Join.passes
  rw [List.length_map, List.any_map, hkey]

namespace Stream

/-- Opening or rewinding a join of two tables costs passes over their pages. -/
theorem fetches_of_join [Join.Sorting] [Grouping.Listing] (hstore : store.Reached)
    {j : Join Scan Scan} (h : Stream.Built store ⟨.join .scan .scan, j⟩)
    (hfl : ∀ page, (j.left.table, page) ∉ store.faults)
    (hfr : ∀ page, (j.right.table, page) ∉ store.faults) {l r : Table}
    (hl : store.table j.left.table = .ok l) (hr : store.table j.right.table = .ok r) (x : TableId)
    {request : Request} (hrequest : request = .start ∨ request = .rewind) :
    Fetches store x (· = j) (request.perform : Call (Join Scan Scan) Answer) fun _ n _ =>
      n = (j.passes l.rows).1 * (List.replicate l.pages.size j.left.table).count x +
        (j.passes l.rows).2 * (List.replicate r.pages.size j.right.table).count x := by
  obtain ⟨hset, hwl, hwr⟩ := wellFormed_of_built h
  have hsound := PageStore.sound_of_reached hstore
  have hfitl : j.left.Fits store := Scan.WellSet.fits hsound hwl
  have hfitr : j.right.Fits store := Scan.WellSet.fits hsound hwr
  have hfields : Join.checkFields j.predicate (Cursor.schema j.left) (Cursor.schema j.right) =
      .ok () := hset.fields
  have hpasses := j.passes_rebound j.left.schema l.rows
  rcases hrequest with rfl | rfl
  · have hstart := Join.start_fetches hfields (Scan.start_begins hfitl hfl hl x)
      (Scan.start_begins hfitr hfr hr x)
    rw [hpasses] at hstart
    exact hstart.bind fun _ _ => Fetches.pure fun _ hn => hn
  · have hrewind := Join.rewind_fetches hfields (Scan.rewind_begins hfitl hfl hl x)
      (Scan.rewind_begins hfitr hfr hr x)
    rw [hpasses] at hrewind
    exact hrewind.bind fun _ _ => Fetches.pure fun _ hn => hn

/-- What a join of two tables without faults reads, whatever has been done with it: each time that it is
opened or rewound with success, the counter of each table goes up by the pages of that table, once for
each pass over it. The left table is read once, and the right one once for each left row, once for each
block of left rows, or once if any of them has a value; sorted, each table is read once if the columns of
the condition are of one type, and not at all otherwise. -/
theorem pages_of_join [Join.Sorting] [Grouping.Listing] (hstore : store.Reached)
    {j : Join Scan Scan} (h : Stream.Built store ⟨.join .scan .scan, j⟩)
    (hdiffer : j.left.table ≠ j.right.table) (hfl : ∀ page, (j.left.table, page) ∉ store.faults)
    (hfr : ∀ page, (j.right.table, page) ∉ store.faults) :
    ∃ l r : Table, store.table j.left.table = .ok l ∧ store.table j.right.table = .ok r ∧
      ∀ (request : Request) (answer : Answer) (s' : Stream) (store' : PageStore),
        request = .start ∨ request = .rewind →
        (⟨.join .scan .scan, j⟩ : Stream).run request.perform store = (.ok answer, s', store') →
        store'.pageReads j.left.table =
            store.pageReads j.left.table + (j.passes l.rows).1 * l.pages.size ∧
          store'.pageReads j.right.table =
            store.pageReads j.right.table + (j.passes l.rows).2 * r.pages.size := by
  obtain ⟨-, ⟨lcolumns, hlcolumns, -⟩, ⟨rcolumns, hrcolumns, -⟩⟩ := wellFormed_of_built h
  obtain ⟨l, hl, -⟩ := PageStore.table_of_columns? hlcolumns
  obtain ⟨r, hr, -⟩ := PageStore.table_of_columns? hrcolumns
  refine ⟨l, r, hl, hr, ?_⟩
  intro request answer s' store' hrequest hrun
  have hcost := fun x => fetches_of_join hstore h hfl hfr hl hr x hrequest j answer rfl
    (congrArg Prod.fst hrun)
  have hstore' : store' = store.countReads (request.perform store j).reads :=
    (congrArg (fun o => o.2.2) hrun).symm
  constructor
  · rw [hstore', PageStore.pageReads_countReads (PageStore.table_eq_ok_iff.1 hl), hcost]
    simp [List.count_replicate, hdiffer.symm]
  · rw [hstore', PageStore.pageReads_countReads (PageStore.table_eq_ok_iff.1 hr), hcost]
    simp [List.count_replicate, hdiffer]

/-- A store with a column of two integers and a column of three cells, with one row on each page. -/
def twoColumns : PageStore :=
  (((columnStore [some 1, some 2]).createTable "other" (.ofTypes [.int])).2.insertAll ⟨1⟩
    (columnRows [some 2, none, some 3])).2

theorem reached_twoColumns : twoColumns.Reached :=
  ((reached_columnStore _).step (.createTable _ _ _)).insertAll _ _

/-- The join of these two columns, row by row. -/
def joinOfTwo : Join Scan Scan where
  predicate := ⟨0, .eq, 0⟩
  schema := (Schema.qualify (.ofTypes [.int]) "a").append (Schema.qualify (.ofTypes [.int]) "b")
  strategy := .nestedLoop
  bufferBytes := 64
  budget := { account := 0, capacity := 128 }
  left := { table := ⟨0⟩, qualifier := "a", schema := Schema.qualify (.ofTypes [.int]) "a" }
  right := { table := ⟨1⟩, qualifier := "b", schema := Schema.qualify (.ofTypes [.int]) "b" }

/-- It reads the two pages on the left once, and the three on the right twice. -/
theorem pages_of_join_of_columns :
    ∃ answer s' store', (⟨.join .scan .scan, joinOfTwo⟩ : Stream).run Request.start.perform twoColumns =
        (.ok answer, s', store') ∧
      store'.pageReads ⟨0⟩ = 2 ∧ store'.pageReads ⟨1⟩ = 6 := by
  have hleft : Scan.make twoColumns ⟨0⟩ "a" = .ok joinOfTwo.left := rfl
  have hright : Scan.make twoColumns ⟨1⟩ "b" = .ok joinOfTwo.right := rfl
  have hjoin : Stream.join { joinBufferBytes := 64, strategy := .nestedLoop } 0 ⟨0, .eq, 0⟩
      (.ofScan joinOfTwo.left) (.ofScan joinOfTwo.right) = .ok ⟨.join .scan .scan, joinOfTwo⟩ := rfl
  have hbuilt := Built.join (.scan hleft) (.scan hright) hjoin
  -- the one pair of equal integers is found
  have hholds := Node.profile_holds (PageStore.sound_of_reached reached_twoColumns)
    (wellFormed_of_built hbuilt)
  have hclosed : Node.AllClosed (Stream.node ⟨.join .scan .scan, joinOfTwo⟩) := ⟨rfl, rfl, rfl⟩
  have hstart := hholds.start_of_opening (Node.closed_self twoColumns hclosed) rfl
  have hperform := (Request.perform_start twoColumns (Stream.node ⟨.join .scan .scan, joinOfTwo⟩)).1
  rw [hstart] at hperform
  have hrun : (⟨.join .scan .scan, joinOfTwo⟩ : Stream).run Request.start.perform twoColumns =
      (.ok .done, _, _) := Prod.ext hperform rfl
  obtain ⟨l, r, hl, hr, hpages⟩ := pages_of_join reached_twoColumns hbuilt (by decide) (fun _ => nofun)
    (fun _ => nofun)
  cases hl
  cases hr
  obtain ⟨hreadLeft, hreadRight⟩ := hpages .start _ _ _ (.inl rfl) hrun
  exact ⟨_, _, _, hrun, hreadLeft, hreadRight⟩

end Stream

end RowStream
