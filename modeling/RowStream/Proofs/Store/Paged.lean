import RowStream.Proofs.Memory.Chunks
import RowStream.Proofs.Store.Growth

/-!
# `RowStream.Proofs.Store.Paged` — the pages of a table are its rows, cut into pieces

A row comes onto the last page while that has room, and else onto a new page. So the pages cut the rows
of a table, in the order in which they were added, into pieces that are full and a rest that has room
left, and a new page is begun only for a row. The page and the slot of a row are its number, divided by
what a page has room for, and what remains of that.

## Contents
- `RecordId.ofNumber` — the place of the row of a number; `ofNumber_injective`.
- `Cut.getElem?_eq` — where an element is found among the pieces.
- `Table.Laid`, `Laid.nextPlace`, `Laid.append` — how the rows lie on the pages, and one more row.
- `Table.Paged` — that they lie so; `Paged.size_pages`, `Paged.page_filled`, `Paged.getElem?_page`.
-/

namespace RowStream

namespace RecordId

/-- The place of the row of this number, counted from 0. -/
def ofNumber (pageRows number : Nat) : RecordId := ⟨number / pageRows, number % pageRows⟩

/-- No two rows have the same place. -/
theorem ofNumber_injective (pageRows : Nat) : Function.Injective (ofNumber pageRows) := by
  intro m n h
  obtain ⟨hpage, hslot⟩ := RecordId.mk.inj h
  rw [← Nat.div_add_mod m pageRows, ← Nat.div_add_mod n pageRows, hpage, hslot]

/-- Behind full pages, the slots of the next page follow. -/
theorem ofNumber_add {pageRows slot : Nat} (h : slot < pageRows) (pages : Nat) :
    ofNumber pageRows (pages * pageRows + slot) = ⟨pages, slot⟩ := by
  have hpos : 0 < pageRows := Nat.lt_of_le_of_lt (Nat.zero_le _) h
  unfold ofNumber
  rw [Nat.add_comm, Nat.add_mul_div_right _ _ hpos, Nat.add_mul_mod_self_right,
    Nat.div_eq_of_lt h, Nat.mod_eq_of_lt h, Nat.zero_add]

end RecordId

namespace Cut

variable {α : Type} {n : Nat} {rows rest : List α} {pieces : List (List α)}

theorem length_eq (h : Cut n rows pieces rest) : rows.length = pieces.length * n + rest.length := by
  rw [h.rows_eq, List.length_append, List.length_flatten, List.map_congr_left h.full,
    List.map_const', List.sum_replicate_nat]

/-- An element is found in the piece and at the position that its number says. -/
theorem getElem?_eq (h : Cut n rows pieces rest) (i : Nat) :
    rows[i]? = ((pieces ++ [rest])[i / n]?).bind (·[i % n]?) := by
  obtain ⟨rfl, hfull, hroom⟩ := h
  have hn : 0 < n := Nat.lt_of_le_of_lt (Nat.zero_le _) hroom
  induction pieces generalizing i with
  | nil =>
    rw [List.flatten_nil, List.nil_append, List.nil_append]
    by_cases hi : i < n
    · rw [Nat.div_eq_of_lt hi, Nat.mod_eq_of_lt hi]
      rfl
    · -- behind the rest there is nothing
      have hpage : 1 ≤ i / n := (Nat.one_le_div_iff hn).2 (Nat.not_lt.1 hi)
      rw [List.getElem?_eq_none (Nat.le_trans hroom.le (Nat.not_lt.1 hi)),
        List.getElem?_eq_none (by exact hpage)]
      rfl
  | cons piece pieces ih =>
    have hlength : piece.length = n := hfull piece (List.mem_cons_self ..)
    rw [List.flatten_cons, List.append_assoc, List.cons_append]
    by_cases hi : i < n
    · rw [List.getElem?_append_left (hlength ▸ hi), Nat.div_eq_of_lt hi, Nat.mod_eq_of_lt hi]
      rfl
    · have hle := Nat.not_lt.1 hi
      rw [List.getElem?_append_right (hlength ▸ hle), hlength,
        ih (i - n) (fun piece hpiece => hfull piece (List.mem_cons_of_mem _ hpiece)),
        ← Nat.mod_eq_sub_mod hle, Nat.div_eq_sub_div hn hle, List.getElem?_cons_succ]

end Cut

namespace Table

variable {pageRows : Nat} {t : Table} {full : List (List Row)} {rest : List Row}

/-! ## How the rows lie on the pages -/

/-- The pages are full pieces of the rows and, if there is one, the rest. -/
structure Laid (pageRows : Nat) (t : Table) (full : List (List Row)) (rest : List Row) : Prop where
  /-- The pieces are those of the rows. -/
  cut : Cut pageRows t.rows full rest
  /-- There are no other pages, and none is empty. -/
  pages_eq : t.pages.toList.map Array.toList = full ++ if rest = [] then [] else [rest]

namespace Laid

/-- The last page, from which new rows go on. -/
theorem map_back? (h : Laid pageRows t full rest) :
    t.pages.back?.map Array.toList = if rest = [] then full.getLast? else some rest := by
  rw [← Array.getLast?_toList, ← List.getLast?_map, h.pages_eq]
  by_cases hrest : rest = []
  · rw [if_pos hrest, if_pos hrest, List.append_nil]
  · rw [if_neg hrest, if_neg hrest, List.getLast?_concat]

theorem size_pages (h : Laid pageRows t full rest) :
    t.pages.size = full.length + if rest = [] then 0 else 1 := by
  have hlength := congrArg List.length h.pages_eq
  rw [List.length_map, Array.length_toList, List.length_append] at hlength
  rw [hlength]
  by_cases hrest : rest = []
  · rw [if_pos hrest, if_pos hrest]
    rfl
  · rw [if_neg hrest, if_neg hrest]
    rfl

/-- Without a rest, the last page is full. -/
theorem full_of_back? (h : Laid pageRows t full []) {page : Array Row}
    (hback : t.pages.back? = some page) : pageRows ≤ page.size := by
  have hlast := h.map_back?
  rw [hback, if_pos rfl] at hlast
  rw [← Array.length_toList, h.cut.full _ (List.mem_of_getLast? hlast.symm)]

/-- A rest is the last page. -/
theorem exists_back? (h : Laid pageRows t full rest) (hrest : rest ≠ []) :
    ∃ page, t.pages.back? = some page ∧ page.toList = rest ∧ page.size < pageRows := by
  have hlast := h.map_back?
  rw [if_neg hrest] at hlast
  obtain ⟨page, hback, rfl⟩ := Option.map_eq_some_iff.1 hlast
  exact ⟨page, hback, rfl, h.cut.room⟩

/-- The next place is that of the next number. -/
theorem nextPlace (h : Laid pageRows t full rest) :
    t.nextPlace pageRows = .ofNumber pageRows t.rows.length := by
  rw [h.cut.length_eq, RecordId.ofNumber_add h.cut.room]
  by_cases hrest : rest = []
  · subst hrest
    rw [nextPlace_of_full fun page => h.full_of_back?, h.size_pages]
    rfl
  · obtain ⟨page, hback, rfl, hroom⟩ := h.exists_back? hrest
    rw [nextPlace_of_room hback hroom, h.size_pages, if_neg hrest]
    rfl

/-- A row goes behind the rest, or onto a new page if there is none. -/
theorem pages_append (h : Laid pageRows t full rest) (row : Row) :
    (t.append pageRows row).pages.toList.map Array.toList =
      full ++ [rest ++ [{ row with recordId := some (t.nextPlace pageRows) }]] := by
  have hpages := h.pages_eq
  by_cases hrest : rest = []
  · subst hrest
    rw [if_pos rfl, List.append_nil] at hpages
    rw [pages_append_of_full (fun page => h.full_of_back?), Array.toList_push, List.map_append, hpages]
    rfl
  · obtain ⟨page, hback, rfl, hroom⟩ := h.exists_back? hrest
    obtain ⟨old, hold⟩ := Array.back?_eq_some_iff.1 hback
    rw [if_neg hrest, hold, Array.toList_push, List.map_append] at hpages
    have hfull := List.append_inj_left' hpages rfl
    rw [pages_append_of_room hback hroom, hold, Array.pop_push, Array.toList_push, List.map_append,
      hfull, List.map_singleton, Array.toList_push]

/-- One more row makes the rest longer or full. -/
theorem append (h : Laid pageRows t full rest) (row : Row) :
    ∃ full' rest', Laid pageRows (t.append pageRows row) full' rest' := by
  let last := rest ++ [{ row with recordId := some (t.nextPlace pageRows) }]
  have hpages : _ = full ++ [last] := h.pages_append row
  have hrows := rows_append t pageRows row
  by_cases hlast : pageRows ≤ rest.length + 1
  · refine ⟨full ++ [last], [], ?_, ?_⟩
    · rw [hrows]
      exact h.cut.push_full hlast
    · rw [hpages, if_pos rfl, List.append_nil]
  · refine ⟨full, last, ?_, ?_⟩
    · rw [hrows]
      exact h.cut.push (Nat.not_le.1 hlast)
    · rw [hpages, if_neg (List.concat_ne_nil _ _)]

end Laid

/-! ## Tables whose rows lie so -/

/-- The rows lie on the pages one behind the other. -/
def Paged (pageRows : Nat) (t : Table) : Prop := ∃ full rest, Laid pageRows t full rest

namespace Paged

/-- A table without pages has no rows to lie on them. -/
theorem of_no_pages (hpos : 0 < pageRows) (h : t.pages = #[]) : Paged pageRows t := by
  refine ⟨[], [], ?_, ?_⟩
  · unfold rows
    rw [h]
    exact Cut.nil hpos
  · rw [h]
    rfl

/-- The next place is that of the next number. -/
theorem nextPlace (h : Paged pageRows t) :
    t.nextPlace pageRows = .ofNumber pageRows t.rows.length := by
  obtain ⟨_, _, hlaid⟩ := h
  exact hlaid.nextPlace

/-- One more row. -/
theorem append (h : Paged pageRows t) (row : Row) : Paged pageRows (t.append pageRows row) := by
  obtain ⟨_, _, hlaid⟩ := h
  exact hlaid.append row

/-- The counter plays no part. -/
theorem of_pages_eq {t' : Table} (h : Paged pageRows t) (hpages : t'.pages = t.pages) :
    Paged pageRows t' := by
  obtain ⟨full, rest, hcut, heq⟩ := h
  refine ⟨full, rest, ?_, ?_⟩
  · unfold rows at hcut ⊢
    rw [hpages]
    exact hcut
  · rw [hpages]
    exact heq

/-- There are as many pages as it takes to hold all rows. -/
theorem size_pages (h : Paged pageRows t) : t.pages.size = t.rows.length ⌈/⌉ pageRows := by
  obtain ⟨full, rest, hlaid⟩ := h
  have hpos : 0 < pageRows := Nat.lt_of_le_of_lt (Nat.zero_le _) hlaid.cut.room
  rw [← length_chunks hpos, hlaid.cut.chunks_eq, ← hlaid.pages_eq, List.length_map,
    Array.length_toList]

/-- No page is empty, none holds more rows than it has room for, and only the last one has room left. -/
theorem page_filled (h : Paged pageRows t) {k : Nat} {page : Array Row}
    (hpage : t.pages[k]? = some page) :
    0 < page.size ∧ page.size ≤ pageRows ∧ (k + 1 < t.pages.size → page.size = pageRows) := by
  obtain ⟨full, rest, hlaid⟩ := h
  have hpos : 0 < pageRows := Nat.lt_of_le_of_lt (Nat.zero_le _) hlaid.cut.room
  have hpiece : (full ++ if rest = [] then [] else [rest])[k]? = some page.toList := by
    rw [← hlaid.pages_eq, List.getElem?_map, Array.getElem?_toList, hpage]
    rfl
  rw [← Array.length_toList]
  by_cases hk : k < full.length
  · -- a full piece
    rw [List.getElem?_append_left hk] at hpiece
    have hfull := hlaid.cut.full _ (List.mem_of_getElem? hpiece)
    rw [hfull]
    exact ⟨hpos, Nat.le_refl _, fun _ => rfl⟩
  · -- the rest, which is the last page
    rw [List.getElem?_append_right (Nat.not_lt.1 hk)] at hpiece
    by_cases hrest : rest = []
    · rw [if_pos hrest] at hpiece
      cases hpiece
    · rw [if_neg hrest] at hpiece
      have hmem := List.mem_singleton.1 (List.mem_of_getElem? hpiece)
      have hsize := hlaid.size_pages
      rw [if_neg hrest] at hsize
      rw [hmem]
      refine ⟨List.length_pos_iff.2 hrest, hlaid.cut.room.le, fun hlt => ?_⟩
      omega

/-- Every row is found at its place. -/
theorem getElem?_page (h : Paged pageRows t) {number : Nat} {row : Row}
    (hrow : t.rows[number]? = some row) :
    ∃ page, t.pages[number / pageRows]? = some page ∧ page[number % pageRows]? = some row := by
  obtain ⟨full, rest, hlaid⟩ := h
  rw [hlaid.cut.getElem?_eq] at hrow
  obtain ⟨piece, hpiece, hslot⟩ := Option.bind_eq_some_iff.1 hrow
  -- a piece with a row is not an empty rest, so it is a page
  have hpage : (t.pages.toList.map Array.toList)[number / pageRows]? = some piece := by
    rw [hlaid.pages_eq, ← hpiece]
    by_cases hrest : rest = []
    · subst hrest
      rw [if_pos rfl, List.append_nil]
      by_cases hk : number / pageRows < full.length
      · rw [List.getElem?_append_left hk]
      · rw [List.getElem?_append_right (Nat.not_lt.1 hk)] at hpiece
        have hnil := List.mem_singleton.1 (List.mem_of_getElem? hpiece)
        rw [hnil] at hslot
        cases hslot
    · rw [if_neg hrest]
  rw [List.getElem?_map, Array.getElem?_toList] at hpage
  obtain ⟨page, hfound, rfl⟩ := Option.map_eq_some_iff.1 hpage
  exact ⟨page, hfound, by rwa [Array.getElem?_toList] at hslot⟩

end Paged

end Table

end RowStream
