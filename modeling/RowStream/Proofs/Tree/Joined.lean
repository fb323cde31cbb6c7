import RowStream.Proofs.Join.Strategies
import RowStream.Proofs.Tree.Built

/-!
# `RowStream.Proofs.Tree.Joined` — what is collected of the join of two trees

A join of two trees that can be collected can be collected, too, unless its strategy cannot be used,
and gives the rows of the join in some order.

## Contents
- `Stream.conforms_column` — the rows of a column conform to it.
- `Join.Usable` — the strategy of a join can be used.
- `Join.answer_of_usable`, `Join.collect_of_usable` — then it finds the rows of the join.
- `Join.collect_perm` — for the join of any two trees, by every strategy.
-/

namespace RowStream

open Call

namespace Stream

theorem conforms_column [Join.Sorting] [Grouping.Listing] (cells : List (Option Int64)) :
    ∀ row ∈ columnRows cells, row.Conforms (column cells).schema :=
  conforms_columnRows cells

end Stream

namespace Join

/-- The strategy can be used: a table of values is asked for one value, and both blocks are free and
can hold a row. -/
structure Usable (b : Join Unit Unit) (ls rs : Schema) : Prop where
  /-- A table of values does not find ranges. -/
  op_eq : b.strategy = .hash → b.predicate.op = .eq
  /-- The left block holds a row. -/
  left_le : b.strategy = .blockNestedLoop → ls.byteSize ≤ b.bufferBytes
  /-- The right block holds a row. -/
  right_le : b.strategy = .blockNestedLoop → rs.byteSize ≤ b.bufferBytes
  /-- Both blocks are free. -/
  used_eq : b.strategy = .blockNestedLoop → b.budget.used = 0

variable {b : Join Unit Unit} {ls rs : Schema} {left right : List Row}

/-- A strategy that can be used finds the rows of the join. -/
theorem answer_of_usable [Join.Sorting] (hset : b.WellSet ls rs) (husable : b.Usable ls rs)
    (hl : ∀ row ∈ left, row.Conforms ls) (hr : ∀ row ∈ right, row.Conforms rs) :
    ∃ rows, b.answer ls rs ⟨left, none⟩ ⟨right, none⟩ = .ok rows ∧
      rows.Perm (b.predicate.join b.schema left right) := by
  rcases answer_cases hset husable.used_eq hl hr with hfound | ⟨e, hrefused, -⟩
  · exact hfound
  · cases hrefused with
    | hash hhash hop => exact absurd (husable.op_eq hhash) hop
    | wide tag hblock hrow hwide =>
      rcases hrow with rfl | rfl
      · exact absurd (husable.left_le hblock) (Nat.not_le.2 hwide)
      · exact absurd (husable.right_le hblock) (Nat.not_le.2 hwide)

variable {σ τ : Type} [Cursor σ] [Cursor τ] {store : PageStore} {L : Profile σ} {R : Profile τ}

/-- What is collected of a join whose strategy can be used are the rows of the join. -/
theorem collect_of_usable [Join.Sorting] (hL : L.Holds store) (hR : R.Holds store) {j : Join σ τ}
    (hset : j.bare.WellSet L.schema R.schema) (husable : j.bare.Usable L.schema R.schema)
    (hj : (profile j.bare L R).closed j) (hleft : L.opening = .ok ⟨left, none⟩)
    (hright : R.opening = .ok ⟨right, none⟩) (hl : ∀ row ∈ left, row.Conforms L.schema)
    (hr : ∀ row ∈ right, row.Conforms R.schema) :
    ∃ rows, (Cursor.collect store j).result = .ok rows ∧
      rows.Perm (j.predicate.join j.schema left right) := by
  obtain ⟨rows, hrows, hperm⟩ := answer_of_usable hset husable hl hr
  have hopening : (profile j.bare L R).opening = .ok ⟨rows, none⟩ :=
    opening_eq_ok_iff.2 ⟨_, _, _, hleft, hright, hrows, rfl⟩
  exact ⟨rows, (profile_holds hL hR hset.sound).collect_of_opening hj hopening, hperm⟩

/-- Two trees that can be collected are joined, by whatever strategy, even while others have taken
bytes from the account of the join: the rows that are collected of the join are, in some order, those
of all pairs of rows that satisfy the condition. A table of values serves equality only, and a block
join needs the whole account and rows that fit into its blocks. -/
theorem collect_perm [Join.Sorting] [Grouping.Listing] {store : PageStore} (hstore : store.Reached)
    {l r : Stream} (hl : l.Built store) (hr : r.Built store) {left right : List Row}
    (hleft : (Cursor.collect store l.node).result = .ok left)
    (hright : (Cursor.collect store r.node).result = .ok right)
    (hlc : ∀ row ∈ left, row.Conforms l.schema) (hrc : ∀ row ∈ right, row.Conforms r.schema)
    {config : Config} {account : Nat} {p : Predicate} {j : Join (Node l.shape) (Node r.shape)}
    (hj : Join.make config account p l.node r.node = .ok j) {f : Budget → Budget}
    (hf : Budget.Shared f) (hhash : config.strategy = .hash → p.op = .eq)
    (hblock : config.strategy = .blockNestedLoop →
      l.schema.byteSize ≤ config.joinBufferBytes ∧ r.schema.byteSize ≤ config.joinBufferBytes ∧
        (f j.budget).used = 0) :
    ∃ rows, (Cursor.collect store { j with budget := f j.budget }).result = .ok rows ∧
      rows.Perm (p.join (l.schema.append r.schema) left right) := by
  have hsound := PageStore.sound_of_reached hstore
  have hL := Node.profile_holds hsound (Stream.wellFormed_of_built hl)
  have hR := Node.profile_holds hsound (Stream.wellFormed_of_built hr)
  -- what was collected of the sides is what they open with
  obtain ⟨hlclosed, hlopening⟩ := hL.closed_of_collect (Node.own_self store _) hleft
  obtain ⟨hrclosed, hropening⟩ := hR.closed_of_collect (Node.own_self store _) hright
  have hls : (l.node.profile store).schema = l.schema := Node.schema_profile _
  have hrs : (r.node.profile store).schema = r.schema := Node.schema_profile _
  have hset := wellSet_of_make hj
  -- the account of the join is as others left it
  obtain ⟨-, -, rfl⟩ := of_make hj
  have hb := Budget.sound_unmarked_iff.1 hset.sound
  refine collect_of_usable hL hR ?_ ?_ ⟨rfl, rfl, hlclosed, hrclosed⟩ hlopening hropening
    (hls ▸ hlc) (hrs ▸ hrc)
  · rw [hls, hrs]
    exact {
      sound := Budget.sound_unmarked_iff.2 (Node.sound_of_shared hf hb)
      capacity_eq := (hf _ hb.used_le).2.1
      buffer_pos := hset.buffer_pos
      buffer_le := hset.buffer_le
      fields := hset.fields
      schema_eq := hset.schema_eq }
  · rw [hls, hrs]
    exact ⟨hhash, fun hs => (hblock hs).1, fun hs => (hblock hs).2.1, fun hs => (hblock hs).2.2⟩

/-- Two columns of integers, of which the right one lacks a value, are joined by blocks that hold one
row each. -/
theorem collect_perm_of_columns :
    ∃ j rows, Join.make { joinBufferBytes := 8 } 7 ⟨0, .ge, 0⟩
        (Stream.column [some 1, some 2]).node (Stream.column [none, some 1]).node = .ok j ∧
      (Cursor.collect (PageStore.empty 64) j).result = .ok rows ∧
      rows.Perm [⟨.ofTypes [.int, .int], [some (.int 1), some (.int 1)], none⟩,
        ⟨.ofTypes [.int, .int], [some (.int 2), some (.int 1)], none⟩] := by
  have hmake : Join.make { joinBufferBytes := 8 } 7 ⟨0, .ge, 0⟩ (Stream.column [some 1, some 2]).node
      (Stream.column [none, some 1]).node = .ok _ := rfl
  have hshared : Budget.Shared id := fun _ h => ⟨rfl, rfl, h⟩
  obtain ⟨rows, hrows, hperm⟩ := collect_perm (PageStore.Reached.empty 64)
    (Stream.built_column _ _) (Stream.built_column _ _) (Materialized.collect_eq _ _ _)
    (Materialized.collect_eq _ _ _) (Stream.conforms_column _) (Stream.conforms_column _) hmake
    hshared (by decide) (fun _ => by decide)
  exact ⟨_, rows, hmake, hrows, hperm.trans (.of_eq (by decide))⟩

end Join

end RowStream
