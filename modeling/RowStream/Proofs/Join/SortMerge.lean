import RowStream.Join.SortMerge
import RowStream.Proofs.Join.Matching
import RowStream.Proofs.Row.Conforms
import RowStream.Proofs.Value.Order

/-!
# `RowStream.Proofs.Join.SortMerge` — sorted sides pair up as unsorted ones do

Of two sides that are sorted by their join values, in whatever order rows of one value stand, every
way to find the partners of a left value finds those right rows whose value satisfies the operator.

## Contents
- `Join.Initial` — a property that stops holding somewhere in a list and never holds again.
- `Join.partners` — the partners of a left value.
- `equalPairs_eq`, `rangePartners_eq`, `rangePartners_reverse_eq`, `unequalPartners_eq` — each way to
  find partners.
- `sortedPairs_eq`, `sortedPairs_perm`, `mem_of_sortedPairs` — the pairs of two sorted sides.
- `joinRows_perm` — joining two sides by sorting them is joining them.
-/

namespace RowStream.Join

/-! ## Properties of the first elements -/

section Initial

variable {α : Type} {p : α → Bool} {rows : List α}

/-- Behind an element without the property there is none with it. -/
def Initial (p : α → Bool) (rows : List α) : Prop := rows.Pairwise fun a b => p b → p a

theorem filter_eq_nil_of_initial {a : α} (h : Initial p (a :: rows)) (ha : ¬ p a = true) :
    rows.filter p = [] := by
  rw [List.filter_eq_nil_iff]
  intro b hb hpb
  exact ha ((List.pairwise_cons.1 h).1 b hb hpb)

/-- The elements with the property come first. -/
theorem takeWhile_eq_filter (h : Initial p rows) : rows.takeWhile p = rows.filter p := by
  induction rows with
  | nil => rfl
  | cons a rows ih =>
    rw [List.takeWhile_cons, List.filter_cons]
    by_cases ha : p a
    · simp [ha, ih (List.pairwise_cons.1 h).2]
    · rw [if_neg ha, filter_eq_nil_of_initial h ha]
      simp [ha]

/-- The elements without the property come last. -/
theorem dropWhile_eq_filter (h : Initial p rows) :
    rows.dropWhile p = rows.filter fun a => !p a := by
  induction rows with
  | nil => rfl
  | cons a rows ih =>
    rw [List.dropWhile_cons, List.filter_cons]
    by_cases ha : p a
    · simp [ha, ih (List.pairwise_cons.1 h).2]
    · have hall : rows.filter (fun a => !p a) = rows := by
        rw [List.filter_eq_self]
        intro b hb
        have := List.filter_eq_nil_iff.1 (filter_eq_nil_of_initial h ha) b hb
        simp [this]
      simp [ha, hall]

/-- The halving search finds the number of elements with the property. -/
theorem partitionPoint_eq_length (h : Initial p rows) :
    partitionPoint p rows.toArray = (rows.takeWhile p).length := by
  have hle : (rows.takeWhile p).length ≤ rows.length := (List.takeWhile_sublist p).length_le
  refine partitionPoint_eq (by simpa using hle) fun i => ?_
  rw [List.getElem?_toArray]
  conv_lhs => rw [← List.takeWhile_append_dropWhile (p := p) (l := rows)]
  by_cases hi : i < (rows.takeWhile p).length
  · rw [List.getElem?_append_left hi, List.getElem?_eq_getElem hi]
    have hall := List.all_eq_true.1 (List.all_takeWhile (p := p) (l := rows))
    simp [hi, hall _ (List.getElem_mem hi)]
  · rw [List.getElem?_append_right (Nat.le_of_not_lt hi), dropWhile_eq_filter h]
    simp only [hi, iff_false, Bool.not_eq_true]
    cases hget : (rows.filter fun a => !p a)[i - (rows.takeWhile p).length]? with
    | none => rfl
    | some a => simpa using (List.mem_filter.1 (List.mem_of_getElem? hget)).2

/-- Up to its length, there is the run of the first elements. -/
theorem take_length_takeWhile (p : α → Bool) (rows : List α) :
    rows.take (rows.takeWhile p).length = rows.takeWhile p :=
  (List.prefix_iff_eq_take.1 (List.takeWhile_prefix p)).symm

/-- From its length on, there is what lies behind the run of the first elements. -/
theorem drop_length_takeWhile (p : α → Bool) (rows : List α) :
    rows.drop (rows.takeWhile p).length = rows.dropWhile p :=
  calc rows.drop (rows.takeWhile p).length
      = (rows.takeWhile p ++ rows.dropWhile p).drop (rows.takeWhile p).length := by
        rw [List.takeWhile_append_dropWhile]
    _ = rows.dropWhile p := List.drop_left

/-- Up to the index that the search finds, there are the elements with the property. -/
theorem take_partitionPoint (h : Initial p rows) :
    rows.take (partitionPoint p rows.toArray) = rows.filter p := by
  rw [partitionPoint_eq_length h, take_length_takeWhile, takeWhile_eq_filter h]

/-- From the index that the search finds on, there are the elements without the property. -/
theorem drop_partitionPoint (h : Initial p rows) :
    rows.drop (partitionPoint p rows.toArray) = rows.filter fun a => !p a := by
  rw [partitionPoint_eq_length h, drop_length_takeWhile, dropWhile_eq_filter h]

end Initial

/-! ## Sorted sides -/

/-- The values up to some value come first, and so do those below it. -/
theorem initial_of_sorted {rows : List Keyed} (h : Sorted rows) (v : Value) :
    Initial (fun w => (w.1.order v).isLE) rows ∧ Initial (fun w => (w.1.order v).isLT) rows := by
  constructor
  · exact h.imp fun hab hb => Std.TransCmp.isLE_trans hab hb
  · refine h.imp fun hab hb => ?_
    rw [Ordering.isLT_iff_eq_lt] at hb ⊢
    exact Std.TransCmp.lt_of_isLE_of_lt hab hb

/-- The rows of a value that none is below come first. -/
theorem initial_beq {rows : List Keyed} (h : Sorted rows) {v : Value}
    (hv : ∀ w ∈ rows, (v.order w.1).isLE) : Initial (fun w => w.1 == v) rows := by
  refine List.Pairwise.imp_of_mem (fun {a b} ha _ hab hb => ?_) h
  rw [beq_iff_eq] at hb ⊢
  rw [hb] at hab
  exact Value.eq_of_order (Std.OrientedCmp.isLE_antisymm hab (hv a ha))

/-! ## Pairing up -/

theorem pairUp_congr {left : List Keyed} {f g : Value → List Keyed}
    (h : ∀ l ∈ left, f l.1 = g l.1) : pairUp left f = pairUp left g := by
  unfold pairUp
  refine List.flatMap_congr fun l hl => ?_
  show (f l.1).map _ = (g l.1).map _
  rw [h l hl]

theorem pairUp_append (left left' : List Keyed) (f : Value → List Keyed) :
    pairUp (left ++ left') f = pairUp left f ++ pairUp left' f := List.flatMap_append

/-- The rows of one value have the same partners. -/
theorem pairUp_run {v : Value} {run : List Keyed} (h : ∀ x ∈ run, x.1 = v)
    (f : Value → List Keyed) :
    pairUp run f = (run.map (·.2)).flatMap fun l => ((f v).map (·.2)).map (l, ·) := by
  unfold pairUp
  rw [List.flatMap_map]
  refine List.flatMap_congr fun x hx => ?_
  show (f x.1).map _ = _
  rw [h x hx, List.map_map]
  rfl

theorem pairUp_perm {left left' : List Keyed} {f g : Value → List Keyed} (hleft : left.Perm left')
    (h : ∀ l ∈ left, (f l.1).Perm (g l.1)) : (pairUp left f).Perm (pairUp left' g) :=
  (List.Perm.flatMap_left left fun l hl => (h l hl).map _).trans (hleft.flatMap_right _)

/-! ## Equality -/

section Runs

variable {v : Value} {rows : List Keyed}

/-- Behind the run of one value, the run of another is what it was. -/
theorem filter_dropWhile (h : Sorted rows) (hv : ∀ w ∈ rows, (v.order w.1).isLE) {u : Value}
    (hu : u ≠ v) : (rows.dropWhile (·.1 == v)).filter (·.1 == u) = rows.filter (·.1 == u) := by
  rw [dropWhile_eq_filter (initial_beq h hv), List.filter_filter]
  refine List.filter_congr fun w _ => ?_
  by_cases hw : w.1 = u
  · simp [hw, hu]
  · simp [hw]

end Runs

/-- A value below the first of a sorted side is none of its values. -/
theorem ne_of_lt_head {v : Value} {row : Keyed} {rows : List Keyed} (h : Sorted (row :: rows))
    (hlt : v.order row.1 = .lt) : ∀ x ∈ row :: rows, x.1 ≠ v := by
  rintro x hx rfl
  rcases List.mem_cons.1 hx with rfl | hx
  · rw [Value.order_self] at hlt
    cases hlt
  · exact Std.OrientedCmp.not_isLE_of_lt hlt ((List.pairwise_cons.1 h).1 x hx)

/-- Where both sides begin with the same value, the rows of that value are paired up, and so is what
lies behind them. -/
theorem pairUp_runs {v : Value} {l r : Row} {left right : List Keyed}
    (hl : Sorted ((v, l) :: left)) (hr : Sorted ((v, r) :: right)) :
    pairUp ((v, l) :: left) (fun u => ((v, r) :: right).filter (·.1 == u)) =
      (l :: (left.takeWhile (·.1 == v)).map (·.2)).flatMap (fun l =>
          (r :: (right.takeWhile (·.1 == v)).map (·.2)).map (l, ·)) ++
        pairUp (left.dropWhile (·.1 == v)) fun u =>
          (right.dropWhile (·.1 == v)).filter (·.1 == u) := by
  obtain ⟨hvl, hleft⟩ := List.pairwise_cons.1 hl
  obtain ⟨hvr, hright⟩ := List.pairwise_cons.1 hr
  -- the right run is what each row of the left run is paired up with
  have hrun : ((v, r) :: right).filter (·.1 == v) = (v, r) :: right.takeWhile (·.1 == v) := by
    rw [takeWhile_eq_filter (initial_beq hright hvr), List.filter_cons]
    simp
  -- all rows of the left run have the value
  have hvalue : ∀ x ∈ (v, l) :: left.takeWhile (·.1 == v), x.1 = v := by
    intro x hx
    rcases List.mem_cons.1 hx with rfl | hx
    · rfl
    · exact beq_iff_eq.1 (List.all_eq_true.1 List.all_takeWhile x hx)
  -- and behind the left run, no value is that of the right run
  have hrest : pairUp (left.dropWhile (·.1 == v))
        (fun u => (right.dropWhile (·.1 == v)).filter (·.1 == u)) =
      pairUp (left.dropWhile (·.1 == v)) fun u => ((v, r) :: right).filter (·.1 == u) := by
    refine pairUp_congr fun x hx => ?_
    rw [dropWhile_eq_filter (initial_beq hleft hvl)] at hx
    have hne : x.1 ≠ v := by simpa using (List.mem_filter.1 hx).2
    rw [filter_dropWhile hright hvr hne, List.filter_cons]
    simp [Ne.symm hne]
  have hsplit : (v, l) :: left =
      ((v, l) :: left.takeWhile (·.1 == v)) ++ left.dropWhile (·.1 == v) := by
    rw [List.cons_append, List.takeWhile_append_dropWhile]
  rw [hrest, hsplit, pairUp_append, pairUp_run hvalue, hrun]
  rfl

/-- Pairing up runs of equal values pairs up each left value with the right rows of that value. -/
theorem equalPairs_eq {left right : List Keyed} (hl : Sorted left) (hr : Sorted right) :
    equalPairs left right = pairUp left fun v => right.filter (·.1 == v) := by
  fun_induction equalPairs left right with
  | case1 right => rfl
  | case2 left => simp [pairUp]
  | case3 v l left w r right hlt ih =>
    -- all right values are greater than the first left one
    have hnone : ((w, r) :: right).filter (·.1 == v) = [] := by
      rw [List.filter_eq_nil_iff]
      intro x hx
      simpa using ne_of_lt_head hr hlt x hx
    rw [ih (List.pairwise_cons.1 hl).2 hr]
    unfold pairUp
    rw [List.flatMap_cons]
    show _ = (((w, r) :: right).filter (·.1 == v)).map _ ++ _
    rw [hnone]
    rfl
  | case4 v l left w r right hgt ih =>
    -- all left values are greater than the first right one
    rw [ih hl (List.pairwise_cons.1 hr).2]
    refine pairUp_congr fun x hx => ?_
    have hne : w ≠ x.1 := Ne.symm (ne_of_lt_head hl (Std.OrientedCmp.lt_of_gt hgt) x hx)
    rw [List.filter_cons]
    simp only [beq_eq_false_iff_ne.2 hne, Bool.false_eq_true, if_false]
  | case5 v l left w r right heq ls rs ih =>
    obtain rfl := Value.eq_of_order heq
    have hleft := (List.pairwise_cons.1 hl).2.sublist (List.dropWhile_sublist (·.1 == v))
    have hright := (List.pairwise_cons.1 hr).2.sublist (List.dropWhile_sublist (·.1 == v))
    rw [ih hleft hright]
    exact (pairUp_runs hl hr).symm

/-! ## Ranges and inequality -/

/-- All values are of one type. -/
def OfType (type : DataType) (rows : List Keyed) : Prop := ∀ w ∈ rows, w.1.type = type

/-- The right rows whose value satisfies the operator with a left value. -/
def partners (op : Comparison) (right : List Keyed) (v : Value) : List Keyed :=
  right.filter fun w => v.satisfies op w.1

section Partners

variable {v : Value} {type : DataType} {right : List Keyed}

/-- What a value is above, it is above all that lies below. -/
theorem satisfies_of_below {op : Comparison} (hop : op = .gt ∨ op = .ge) {a b : Value}
    (hv : v.type = type) (ha : a.type = type) (hb : b.type = type) (hab : (a.order b).isLE)
    (h : v.satisfies op b = true) : v.satisfies op a = true := by
  rw [Value.satisfies_eq (hv.trans hb.symm)] at h
  rw [Value.satisfies_eq (hv.trans ha.symm)]
  rcases hop with rfl | rfl
  · have hvb : v.order b = .gt := by simpa [Comparison.holds] using h
    have hlt := Std.TransCmp.lt_of_isLE_of_lt hab (Std.OrientedCmp.lt_of_gt hvb)
    simp [Comparison.holds, Std.OrientedCmp.gt_of_lt hlt]
  · have hvb : (v.order b).isGE := by
      cases ho : v.order b <;> simp [Comparison.holds, ho] at h ⊢
    have hav := Std.TransCmp.isLE_trans hab (Std.OrientedCmp.isGE_iff_isLE.1 hvb)
    have hva := Std.OrientedCmp.isGE_of_isLE hav
    cases ho : v.order a <;> simp [Comparison.holds, ho] at hva ⊢

/-- What a value is below, it is below all that lies above. -/
theorem satisfies_of_above {op : Comparison} (hop : op = .lt ∨ op = .le) {a b : Value}
    (hv : v.type = type) (ha : a.type = type) (hb : b.type = type) (hab : (a.order b).isLE)
    (h : v.satisfies op a = true) : v.satisfies op b = true := by
  rw [Value.satisfies_eq (hv.trans ha.symm)] at h
  rw [Value.satisfies_eq (hv.trans hb.symm)]
  rcases hop with rfl | rfl
  · have hva : v.order a = .lt := by simpa [Comparison.holds] using h
    simp [Comparison.holds, Std.TransCmp.lt_of_lt_of_isLE hva hab]
  · have hva : (v.order a).isLE := by
      cases ho : v.order a <;> simp [Comparison.holds, ho] at h ⊢
    have hvb := Std.TransCmp.isLE_trans hva hab
    cases ho : v.order b <;> simp [Comparison.holds, ho] at hvb ⊢

/-- The partners above which a value lies are the first of the ascending side. -/
theorem rangePartners_eq {op : Comparison} (hop : op = .gt ∨ op = .ge) (h : Sorted right)
    (hv : v.type = type) (ht : OfType type right) :
    rangePartners op v right = partners op right v := by
  unfold rangePartners partners
  refine takeWhile_eq_filter (List.Pairwise.imp_of_mem (fun {a b} ha hb hab hvb => ?_) h)
  exact satisfies_of_below hop hv (ht a ha) (ht b hb) hab hvb

/-- The partners below which a value lies are the first of the descending side. -/
theorem rangePartners_reverse_eq {op : Comparison} (hop : op = .lt ∨ op = .le) (h : Sorted right)
    (hv : v.type = type) (ht : OfType type right) :
    rangePartners op v right.reverse = partners op right.reverse v := by
  unfold rangePartners partners
  refine takeWhile_eq_filter ?_
  -- read from its end, the side has its greatest values first
  unfold Initial
  rw [List.pairwise_reverse]
  refine List.Pairwise.imp_of_mem (fun {a b} ha hb hab hva => ?_) h
  exact satisfies_of_above hop hv (ht a ha) (ht b hb) hab hva

/-- What lies before and behind the run of a value are its partners for inequality. -/
theorem unequalPartners_eq (h : Sorted right) (hv : v.type = type) (ht : OfType type right) :
    unequalPartners v right.toArray = partners .ne right v := by
  obtain ⟨hle, hlt⟩ := initial_of_sorted h v
  have hne : ∀ w ∈ right, v.satisfies .ne w.1 = !(w.1.order v == .eq) := by
    intro w hw
    rw [Value.satisfies_eq (hv.trans (ht w hw).symm), Value.order_swap]
    cases w.1.order v <;> rfl
  unfold unequalPartners partners
  simp only [take_partitionPoint hlt, drop_partitionPoint hle]
  -- the side splits into the values below `v` and those that are not, and so do the partners
  have hsplit : right.filter (fun w => v.satisfies .ne w.1) =
      (right.filter fun w => (w.1.order v).isLT).filter (fun w => v.satisfies .ne w.1) ++
        (right.filter fun w => !(w.1.order v).isLT).filter fun w => v.satisfies .ne w.1 := by
    rw [← List.filter_append, ← takeWhile_eq_filter hlt, ← dropWhile_eq_filter hlt,
      List.takeWhile_append_dropWhile]
  rw [hsplit, List.filter_filter, List.filter_filter]
  refine congrArg₂ (· ++ ·) (List.filter_congr fun w hw => ?_) (List.filter_congr fun w hw => ?_)
  · rw [hne w hw]
    cases w.1.order v <;> rfl
  · rw [hne w hw]
    cases w.1.order v <;> rfl

end Partners

/-! ## Two sorted sides -/

/-- The order in which the right side is read: for the values above the left one, from its end. -/
def readingOrder (op : Comparison) (right : List Keyed) : List Keyed :=
  match op with
  | .lt | .le => right.reverse
  | .eq | .ne | .gt | .ge => right

theorem readingOrder_perm (op : Comparison) (right : List Keyed) :
    (readingOrder op right).Perm right := by
  cases op with
  | lt | le => exact List.reverse_perm right
  | eq | ne | gt | ge => exact .rfl

/-- The pairs of two sorted sides are, for one left row after the other, those of its partners. -/
theorem sortedPairs_eq {type : DataType} {left right : List Keyed} (op : Comparison)
    (hl : Sorted left) (hr : Sorted right) (htl : OfType type left) (htr : OfType type right) :
    sortedPairs op left right = pairUp left (partners op (readingOrder op right)) := by
  unfold sortedPairs
  cases op with
  | eq =>
    rw [equalPairs_eq hl hr]
    refine pairUp_congr fun l hl => List.filter_congr fun w hw => ?_
    rw [Bool.eq_iff_iff, beq_iff_eq, Value.satisfies_eq_iff]
    exact eq_comm
  | gt => exact pairUp_congr fun l hl => rangePartners_eq (.inl rfl) hr (htl l hl) htr
  | ge => exact pairUp_congr fun l hl => rangePartners_eq (.inr rfl) hr (htl l hl) htr
  | lt => exact pairUp_congr fun l hl => rangePartners_reverse_eq (.inl rfl) hr (htl l hl) htr
  | le => exact pairUp_congr fun l hl => rangePartners_reverse_eq (.inr rfl) hr (htl l hl) htr
  | ne => exact pairUp_congr fun l hl => unequalPartners_eq hr (htl l hl) htr

/-- In any order, they are those whose values satisfy the operator. -/
theorem sortedPairs_perm {type : DataType} {left right : List Keyed} (op : Comparison)
    (hl : Sorted left) (hr : Sorted right) (htl : OfType type left) (htr : OfType type right) :
    (sortedPairs op left right).Perm (pairUp left (partners op right)) := by
  rw [sortedPairs_eq op hl hr htl htr]
  exact pairUp_perm .rfl fun l _ => (readingOrder_perm op right).filter _

/-- Whoever is paired up with some of the right rows is a left row, and they are right rows. -/
theorem mem_of_pairUp {left right : List Keyed} {f : Value → List Keyed} (hf : ∀ v, f v ⊆ right)
    {l r : Row} (h : (l, r) ∈ pairUp left f) : l ∈ left.map (·.2) ∧ r ∈ right.map (·.2) := by
  unfold pairUp at h
  obtain ⟨⟨v, l'⟩, hl, hpair⟩ := List.mem_flatMap.1 h
  obtain ⟨w, hw, hrow⟩ := List.mem_map.1 hpair
  cases hrow
  exact ⟨List.mem_map_of_mem hl, List.mem_map_of_mem (hf v hw)⟩

/-- Each pair is made of rows of the two sides, whatever the types of their values. -/
theorem mem_of_sortedPairs {op : Comparison} {left right : List Keyed} (hl : Sorted left)
    (hr : Sorted right) {l r : Row} (h : (l, r) ∈ sortedPairs op left right) :
    l ∈ left.map (·.2) ∧ r ∈ right.map (·.2) := by
  have hrange : ∀ rows : List Keyed, rows ⊆ right → ∀ v, rangePartners op v rows ⊆ right :=
    fun rows hrows v => List.Subset.trans (List.takeWhile_sublist _).subset hrows
  unfold sortedPairs at h
  cases op with
  | eq =>
    rw [equalPairs_eq hl hr] at h
    exact mem_of_pairUp (fun v => List.filter_subset_self _) h
  | gt | ge => exact mem_of_pairUp (hrange right (List.Subset.refl _)) h
  | lt | le =>
    exact mem_of_pairUp (hrange right.reverse fun w hw => List.mem_reverse.1 hw) h
  | ne =>
    refine mem_of_pairUp (fun v w hw => ?_) h
    unfold unequalPartners at hw
    rcases List.mem_append.1 hw with hw | hw
    · exact List.mem_of_mem_take hw
    · exact List.mem_of_mem_drop hw

/-! ## The sorted sides -/

/-- The values of rows that conform to a schema are of the type of their column. -/
theorem ofType_keyed {schema : Schema} {type : DataType} {field : Nat} {rows : List Row}
    (hrows : ∀ row ∈ rows, row.Conforms schema) (hfield : schema.types[field]? = some type) :
    OfType type (rows.filterMap (keyed? field)) := by
  intro w hw
  obtain ⟨row, hrow, hkey⟩ := List.mem_filterMap.1 hw
  obtain ⟨v, hv, rfl⟩ := Option.map_eq_some_iff.1 hkey
  have := (hrows row hrow).type_eq hv
  rw [hfield] at this
  exact (Option.some.inj this).symm

/-- The partners of a left row, by its value and by the condition. -/
theorem partners_filterMap {p : Predicate} {l : Row} {v : Value} (hv : l.get? p.leftField = some v)
    (right : List Row) :
    (partners p.op (right.filterMap (keyed? p.rightField)) v).map (·.2) =
      right.filter (p.holds l) := by
  unfold partners
  induction right with
  | nil => rfl
  | cons r right ih =>
    rw [List.filterMap_cons, List.filter_cons]
    cases hw : r.get? p.rightField with
    | none =>
      have hholds : p.holds l r = false := by simp [Predicate.holds, hv, hw]
      simp only [keyed?, hw, Option.map_none, hholds, Bool.false_eq_true, if_false]
      exact ih
    | some w =>
      have hholds : p.holds l r = v.satisfies p.op w := by simp [Predicate.holds, hv, hw]
      simp only [keyed?, hw, Option.map_some, hholds, List.filter_cons]
      by_cases hs : v.satisfies p.op w
      · rw [if_pos hs, if_pos hs, List.map_cons]
        exact congrArg (r :: ·) ih
      · rw [if_neg hs, if_neg hs]
        exact ih

/-- Pairing up the rows that have values is joining all rows. -/
theorem map_pairUp (p : Predicate) (schema : Schema) (left right : List Row) :
    (pairUp (left.filterMap (keyed? p.leftField))
        (partners p.op (right.filterMap (keyed? p.rightField)))).map (fun (l, r) => l.append r schema) =
      p.join schema left right := by
  unfold pairUp Predicate.join
  induction left with
  | nil => rfl
  | cons l left ih =>
    rw [List.flatMap_cons, List.filterMap_cons]
    cases hv : l.get? p.leftField with
    | none =>
      have hnone : right.filter (p.holds l) = [] := by
        rw [List.filter_eq_nil_iff]
        intro r hr
        simp [Predicate.holds, hv]
      simp only [keyed?, hv, Option.map_none, hnone, List.map_nil, List.nil_append]
      exact ih
    | some v =>
      simp only [keyed?, hv, Option.map_some, List.flatMap_cons, List.map_append]
      refine congrArg₂ (· ++ ·) ?_ ih
      rw [← partners_filterMap hv right, List.map_map, List.map_map]
      rfl

/-- Joining two sides whose rows are sorted by their values, in any order of the rows of one value,
is joining them. -/
theorem joinRows_perm {p : Predicate} {schema ls rs : Schema} {type : DataType}
    {left right : List Row} (hl : ∀ row ∈ left, row.Conforms ls)
    (hr : ∀ row ∈ right, row.Conforms rs) (htl : ls.types[p.leftField]? = some type)
    (htr : rs.types[p.rightField]? = some type) {sortedLeft sortedRight : List Keyed}
    (hsl : Sorted sortedLeft) (hpl : sortedLeft.Perm (left.filterMap (keyed? p.leftField)))
    (hsr : Sorted sortedRight) (hpr : sortedRight.Perm (right.filterMap (keyed? p.rightField))) :
    ((sortedPairs p.op sortedLeft sortedRight).map fun (l, r) => l.append r schema).Perm
      (p.join schema left right) := by
  have hol : OfType type sortedLeft := fun w hw => ofType_keyed hl htl w (hpl.mem_iff.1 hw)
  have hor : OfType type sortedRight := fun w hw => ofType_keyed hr htr w (hpr.mem_iff.1 hw)
  have hpartners : ∀ l ∈ sortedLeft, (partners p.op sortedRight l.1).Perm
      (partners p.op (right.filterMap (keyed? p.rightField)) l.1) := fun l _ => hpr.filter _
  rw [← map_pairUp p schema left right]
  exact ((sortedPairs_perm p.op hsl hsr hol hor).trans (pairUp_perm hpl hpartners)).map _

/-- Where the columns are of different types, no two rows satisfy the condition. -/
theorem join_eq_nil_of_types {p : Predicate} {schema ls rs : Schema} {lt rt : DataType}
    {left right : List Row} (hl : ∀ row ∈ left, row.Conforms ls)
    (hr : ∀ row ∈ right, row.Conforms rs) (htl : ls.types[p.leftField]? = some lt)
    (htr : rs.types[p.rightField]? = some rt) (hne : lt ≠ rt) :
    p.join schema left right = [] := by
  refine Predicate.join_eq_nil fun l hleft r hright => ?_
  rw [Bool.eq_false_iff]
  intro hholds
  obtain ⟨v, w, hv, hw, hs⟩ := Predicate.holds_iff.1 hholds
  have hvt := (hl l hleft).type_eq hv
  have hwt := (hr r hright).type_eq hw
  rw [htl] at hvt
  rw [htr] at hwt
  have hvw : v.type ≠ w.type := fun h =>
    hne ((Option.some.inj hvt).trans (h.trans (Option.some.inj hwt).symm))
  rw [Value.satisfies_of_ne hvw] at hs
  cases hs

end RowStream.Join
