import RowStream.Proofs.Stream.Typed
import RowStream.Proofs.Tree.Alike
import RowStream.Proofs.Tree.Anew

/-!
# `RowStream.Proofs.Tree.Typed` — what a tree gives is what its columns say

Values are checked where rows are made, and columns where trees are built. Nothing is checked when rows
are put together, handed on or stored, and nothing need be: if the rows in the store and at hand are what
their columns say, then so are all rows in a tree, whatever was done to it before.

## Contents
- `Node.Typed` — the rows in the midst of a tree are what their columns say.
- `Node.wellTyped` — such a tree gives no other rows, and stays such a tree.
- `Stream.typed_of_built` — every tree that can come about is one.
- `Node.Composed`, `composed_of_wellFormed` — what the columns of joins and aggregates are made of.
- `Node.performAll` — a tree after some calls.
- `Stream.rows_typed` — whatever is asked of any part of a tree, its rows are what its columns say, and no
  call fails because of columns or types.
-/

namespace RowStream

open Call

/-- Rows at hand are what the columns say. -/
def Materialized.Stocked (s : Materialized) : Prop := ∀ row ∈ s.rows, row.Typed s.schema

/-- What is known of a request of a stream that gives rows that are what their columns say. -/
theorem Cursor.WellTyped.perform {σ : Type} [Cursor σ] {store : PageStore} {schema : Schema}
    {I : σ → Prop} (h : WellTyped store schema I) (request : Request) :
    Triple store I request.perform
      (fun answer s => (∀ row, answer = .row row → row.Typed schema) ∧ I s)
      (fun e s => e.isTyping = false ∧ I s) := by
  cases request with
  | start => exact h.obeys.start.bind fun _ => Triple.pure fun s hs => ⟨nofun, hs⟩
  | hasNext => exact h.obeys.reads.hasNext.bind fun _ => Triple.pure fun s hs => ⟨nofun, hs⟩
  | next =>
    refine h.obeys.reads.next.bind fun row => Triple.pure ?_
    rintro s ⟨hrow, hs⟩
    refine ⟨?_, hs⟩
    rintro _ ⟨⟩
    exact hrow
  | rewind => exact h.obeys.reads.rewind.bind fun _ => Triple.pure fun s hs => ⟨nofun, hs⟩
  | close =>
    have hclose : Triple store I (Call.modify Cursor.close) (fun _ => I)
        (fun e s => e.isTyping = false ∧ I s) := Triple.modify fun s hs => h.obeys.close hs
    exact hclose.bind fun _ => Triple.pure fun s hs => ⟨nofun, hs⟩

namespace Node

variable [Join.Sorting] [Grouping.Listing]

/-- The rows at hand, the rows that are loaded, and those that were found and are still to come are what
the columns of their nodes say. -/
def Typed : {shape : Shape} → Node shape → Prop
  | .materialized, s =>
    Materialized.Stocked s ∧ Replay.All (·.Typed (Materialized.schema s)) (Materialized.pending s)
  | .scan, s => ∀ p ∈ Scan.position s, ∀ row ∈ p.loaded, row.Typed (Scan.schema s)
  | .sealed _, s => Typed (Sealed.inner s)
  | .join _ _, j =>
    Replay.All (·.Typed (Join.schema j)) (Join.pending j) ∧ Typed (Join.left j) ∧ Typed (Join.right j)
  | .aggregate _, a =>
    (∀ run ∈ Aggregate.run a, (Aggregate.blank a).Keyed run.groups ∧
      ∀ row ∈ run.pending, row.Typed (Aggregate.schema a)) ∧ Typed (Aggregate.child a)

variable {store : PageStore} {shape : Shape} {t : Node shape}

/-- A tree of such rows gives no other rows, and stays such a tree. -/
theorem wellTyped (hstore : store.Sound) (hrows : store.Stocked) (h : t.WellFormed store)
    (ht : t.Typed) :
    Cursor.WellTyped store (Cursor.schema t) fun t' => (t.profile store).own t' ∧ t'.Typed := by
  induction shape with
  | materialized =>
    have hschema : ∀ {t'}, Materialized.close t' = Materialized.close t →
        Materialized.schema t' = Materialized.schema t := fun h => (congrArg Materialized.schema h : _)
    have hall : ∀ {t'}, Materialized.close t' = Materialized.close t →
        Materialized.rows t' = Materialized.rows t := fun h => (congrArg Materialized.rows h : _)
    refine (Materialized.wellTyped ht.1).congr fun t' => ⟨?_, ?_⟩
    · rintro ⟨hsame, -, hpending⟩
      exact ⟨hsame, hschema hsame ▸ hpending⟩
    · rintro ⟨hsame, hpending⟩
      refine ⟨hsame, ?_, (hschema hsame).symm ▸ hpending⟩
      intro row hrow
      rw [hall hsame] at hrow
      exact (hschema hsame).symm ▸ ht.1 row hrow
  | scan =>
    have hschema : ∀ {t'}, Scan.close t' = Scan.close t → Scan.schema t' = Scan.schema t :=
      fun h => (congrArg Scan.schema h : _)
    refine (Scan.wellTyped hstore hrows h).congr fun t' => ⟨?_, ?_⟩
    · rintro ⟨hsame, hloaded⟩
      exact ⟨hsame, hschema hsame ▸ hloaded⟩
    · rintro ⟨hsame, hloaded⟩
      refine ⟨hsame, fun p hp row hrow => ?_⟩
      exact (hschema hsame).symm ▸ hloaded p hp row hrow
  | sealed inner ih => exact Sealed.wellTyped (ih h ht)
  | join left right ihl ihr =>
    have hschema : ∀ {t' : Join (Node left) (Node right)}, t'.bare = Join.bare t →
        t'.schema = Join.schema t := fun h => (congrArg Join.schema h : _)
    refine (Join.wellTyped (ihl h.2.1 ht.2.1) (ihr h.2.2 ht.2.2) h.1).congr fun t' => ⟨?_, ?_⟩
    · rintro ⟨⟨hbare, hl, hr⟩, hpending, htl, htr⟩
      exact ⟨⟨hbare, ⟨hl, htl⟩, hr, htr⟩, hschema hbare ▸ hpending⟩
    · rintro ⟨⟨hbare, ⟨hl, htl⟩, hr, htr⟩, hpending⟩
      exact ⟨⟨hbare, hl, hr⟩, (hschema hbare).symm ▸ hpending, htl, htr⟩
  | aggregate child ih =>
    have hsettings : ∀ {t' : Aggregate (Node child)}, t'.bare = Aggregate.bare t →
        t'.schema = Aggregate.schema t ∧ t'.blank = Aggregate.blank t := fun h =>
      ⟨(congrArg Aggregate.schema h : _), (congrArg Aggregate.blank h : _)⟩
    refine (Aggregate.wellTyped (ih h.2 ht.2) h.1).congr fun t' => ⟨?_, ?_⟩
    · rintro ⟨⟨hbare, hc⟩, hrun, htc⟩
      obtain ⟨hschema, hblank⟩ := hsettings hbare
      exact ⟨⟨hbare, hc, htc⟩, hschema ▸ hblank ▸ hrun⟩
    · rintro ⟨⟨hbare, hc, htc⟩, hrun⟩
      obtain ⟨hschema, hblank⟩ := hsettings hbare
      exact ⟨⟨hbare, hc⟩, hschema.symm ▸ hblank.symm ▸ hrun, htc⟩

omit [Join.Sorting] [Grouping.Listing] in
/-- Accounts play no part in the rows. -/
theorem typed_mapBudgets (f : Budget → Budget) (h : t.Typed) : (t.mapBudgets f).Typed := by
  induction shape with
  | materialized => exact h
  | scan => exact h
  | sealed inner ih => exact ih h
  | join left right ihl ihr => exact ⟨h.1, ihl h.2.1, ihr h.2.2⟩
  | aggregate child ih => exact ⟨h.1, ih h.2⟩

omit [Join.Sorting] [Grouping.Listing] in
/-- What is known of a tree is known of its parts. -/
theorem Typed.partOf {whole : Shape} {t : Node whole} {part : Node shape} (h : t.Typed)
    (hpart : part.PartOf t) : part.Typed := by
  induction hpart with
  | refl => exact h
  | inner _ ih => exact ih h
  | left _ ih => exact ih h.2.1
  | right _ ih => exact ih h.2.2
  | child _ ih => exact ih h.2

theorem WellFormed.partOf {whole : Shape} {t : Node whole} {part : Node shape}
    (h : t.WellFormed store) (hpart : part.PartOf t) : part.WellFormed store := by
  induction hpart with
  | refl => exact h
  | inner _ ih => exact ih h
  | left _ ih => exact ih h.2.1
  | right _ ih => exact ih h.2.2
  | child _ ih => exact ih h.2

/-- The tree after calls that are performed on it one after the other. -/
def performAll (store : PageStore) (t : Node shape) : List Request → Node shape
  | [] => t
  | request :: requests => performAll store (request.perform store t).state requests

/-- What every call keeps, calls that are performed one after the other keep. -/
theorem performAll_keeps {schema : Schema} {I : Node shape → Prop}
    (h : Cursor.WellTyped store schema I) (requests : List Request) (ht : I t) :
    I (t.performAll store requests) := by
  induction requests generalizing t with
  | nil => exact ht
  | cons request requests ih =>
    have hcall := (h.perform request).imp (fun _ => id) (fun _ _ => And.right) (fun _ _ => And.right)
    exact ih (hcall.of_both ht)

/-! ## The columns -/

/-- The columns of a join are those of the left side and then those of the right side. The columns of an
aggregate are the group column of its child, if there is one, and an integer under the name of the
aggregated column; both columns are there. -/
def Composed : {shape : Shape} → Node shape → Prop
  | .join _ _, j =>
    (Join.schema j).fields =
      (Cursor.schema (Join.left j)).fields ++ (Cursor.schema (Join.right j)).fields
  | .aggregate _, a =>
    ∃ input, (Cursor.schema (Aggregate.child a)).fields[Aggregate.field a]? = some input ∧
      match Aggregate.groupField a with
      | none => (Aggregate.schema a).fields = [⟨input.name, .int⟩]
      | some index => ∃ group, (Cursor.schema (Aggregate.child a)).fields[index]? = some group ∧
          (Aggregate.schema a).fields = [group, ⟨input.name, .int⟩]
  | _, _ => True

/-- What the columns are made of follows from the settings. -/
theorem composed_of_wellFormed (h : t.WellFormed store) : t.Composed := by
  induction shape with
  | materialized | scan | sealed => trivial
  | join left right => exact congrArg Schema.fields h.1.schema_eq
  | aggregate child =>
    obtain ⟨input, group, hinput, hgroup, -, hschema⟩ := Aggregate.of_wellSet h.1
    refine ⟨input, Aggregate.fields_of_column hinput, ?_⟩
    have hfields : (Aggregate.schema t).fields = group.toList ++ [⟨input.name, .int⟩] :=
      congrArg Schema.fields hschema
    rw [hfields]
    replace hgroup : (Aggregate.groupField t).mapM (Aggregate.column _) = .ok group := hgroup
    cases hindex : Aggregate.groupField t with
    | none =>
      rw [hindex] at hgroup
      cases hgroup
      rfl
    | some index =>
      rw [hindex] at hgroup
      cases hcolumn : Aggregate.column (Cursor.schema (Aggregate.child t)) index with
      | error e =>
        rw [Option.mapM_some, hcolumn] at hgroup
        cases hgroup
      | ok found =>
        rw [Option.mapM_some, hcolumn] at hgroup
        cases hgroup
        exact ⟨found, Aggregate.fields_of_column hcolumn, rfl⟩

end Node

namespace Stream

variable {store : PageStore}

/-- A scan that is closed has loaded no rows. -/
theorem typed_ofScan {s : Scan} (h : s.position = none) : (ofScan s).node.Typed := by
  intro p hp
  cases h.symm.trans hp

/-- In every tree that can come about over a store of such rows, with such rows at hand, the rows are what
their columns say. -/
theorem typed_of_built [Join.Sorting] [Grouping.Listing] {s : Stream} (h : s.Built store)
    (hstore : store.Sound) (hrows : store.Stocked)
    (hleaves : s.node.Leaves Materialized.Stocked fun _ => True) :
    s.node.Typed := by
  induction h with
  | materialized => exact ⟨hleaves, Replay.all_none _⟩
  | scan hscan => exact typed_ofScan (Scan.of_make hscan).2.1
  | @reset store s table qualifier h ih =>
    apply typed_ofScan
    rw [Scan.reset_eq]
    cases hmake : Scan.make store table qualifier with
    | ok new => exact (Scan.of_make hmake).2.1
    | error e => rfl
  | cover h ih => exact ih hstore hrows hleaves
  | join _ _ h ihl ihr =>
    obtain ⟨j, hj, rfl⟩ := of_join h
    obtain ⟨-, -, rfl⟩ := Join.of_make hj
    exact ⟨Replay.all_none _, ihl hstore hrows hleaves.1, ihr hstore hrows hleaves.2⟩
  | aggregate _ h ih =>
    obtain ⟨a, ha, rfl⟩ := of_aggregate h
    obtain ⟨blank, schema, -, rfl⟩ := Aggregate.of_make ha
    exact ⟨nofun, ih hstore hrows hleaves⟩
  | @setStrategy store s strategy h ih =>
    obtain ⟨shape, t⟩ := s
    cases shape with
    | join left right => exact ih hstore hrows hleaves
    | _ => exact ih hstore hrows hleaves
  | setChildren _ _ h ih ihs =>
    cases rebinds_of_setChildren h with
    | @join l r j left right j' hj =>
      obtain ⟨hpending, -, rfl⟩ := Join.eq_of_setChildren hj
      refine ⟨?_, ihs left (by simp) hstore hrows hleaves.1, ihs right (by simp) hstore hrows hleaves.2⟩
      show Replay.All _ j.pending
      rw [hpending]
      exact Replay.all_none _
    | @aggregate c a child a' ha =>
      obtain ⟨hrun, blank, schema, -, rfl⟩ := Aggregate.eq_of_setChild ha
      refine ⟨?_, ihs child (by simp) hstore hrows hleaves⟩
      intro run hopen
      rw [show a.run = some run from hopen] at hrun
      cases hrun
    | alone => exact ih hstore hrows hleaves
  | @call store s request h ih =>
    have hwell := wellFormed_of_built h
    have hown : (s.node.profile store).own (request.perform store s.node).state :=
      Node.own_perform request hwell
    -- a call leaves the rows at hand alone, so they were such rows before
    have hbefore : s.node.Leaves Materialized.Stocked fun _ => True := by
      refine Node.leaves_of_own ?_ (fun _ => id) (Node.own_symm hown) hleaves
      intro m m' hsame hm row hrow
      have hschema : m'.schema = m.schema := (congrArg Materialized.schema hsame : _)
      have hall : m'.rows = m.rows := (congrArg Materialized.rows hsame : _)
      exact hschema.symm ▸ hm row (hall ▸ hrow)
    have hcall := (Node.wellTyped hstore hrows hwell (ih hstore hrows hbefore)).perform request
    exact (Triple.of_both (hcall.imp (fun _ => id) (fun _ _ hs => hs.2) (fun _ _ hs => hs.2))
      ⟨Node.own_self store s.node, ih hstore hrows hbefore⟩).2
  | share hf h ih =>
    exact Node.typed_mapBudgets _ (ih hstore hrows ((Node.leaves_mapBudgets _).1 hleaves))
  | elapse hstep h ih =>
    exact ih (PageStore.sound_of_step hstep hstore) (PageStore.stocked_of_step hstep hrows) hleaves

/-! ## Every part of a tree -/

/-- Over a store of rows that are what their columns say, take a tree that can come about, with such rows
at hand, and of it any part; and let any calls be performed on that part, as the tree around it does.
Then the columns are as before, and are composed as they should be; every row that the part gives is what
they say; and no call fails because of columns or types. -/
theorem rows_typed [Join.Sorting] [Grouping.Listing] (hstore : store.Reached)
    (hrows : store.Stocked) {s : Stream} (hs : s.Built store)
    (hleaves : s.node.Leaves Materialized.Stocked fun _ => True) {shape : Shape} {part : Node shape}
    (hpart : part.PartOf s.node) (requests : List Request) :
    let t := part.performAll store requests
    Cursor.schema t = Cursor.schema part ∧ t.Composed ∧
      (∀ row, (Cursor.next store t).result = .ok row → row.Typed (Cursor.schema t)) ∧
      ∀ request e, (Request.perform request store t).result = .error e → e.isTyping = false := by
  intro t
  have hsound := PageStore.sound_of_reached hstore
  have hwell := (wellFormed_of_built hs).partOf hpart
  have hpromise := Node.wellTyped hsound hrows hwell
    ((typed_of_built hs hsound hrows hleaves).partOf hpart)
  obtain ⟨hown, htyped⟩ := Node.performAll_keeps hpromise requests
    ⟨Node.own_self store part, (typed_of_built hs hsound hrows hleaves).partOf hpart⟩
  have hschema := hpromise.schema_eq ⟨hown, htyped⟩
  refine ⟨hschema, Node.composed_of_wellFormed (Node.wellFormed_of_own hwell hown), ?_, ?_⟩
  · intro row hrow
    rw [hschema]
    exact (hpromise.obeys.reads.next.of_ok ⟨hown, htyped⟩ hrow).1
  · intro request e he
    exact ((hpromise.perform request).of_error ⟨hown, htyped⟩ he).1

/-- The rows of a column of integers can be made. -/
theorem made_columnRows (cells : List (Option Int64)) : ∀ row ∈ columnRows cells, row.Made := by
  intro row hrow
  obtain ⟨cell, -, rfl⟩ := List.mem_map.1 hrow
  cases cell with
  | none => exact .empty (.ofTypes [.int])
  | some n =>
    have hset : (Row.empty (.ofTypes [.int])).set 0 (.int n) =
        .ok { schema := .ofTypes [.int], cells := [some (.int n)] } := rfl
    exact .set (.empty _) hset

/-- So they are what their column says. -/
theorem typed_columnRows (cells : List (Option Int64)) :
    ∀ row ∈ columnRows cells, row.Typed (.ofTypes [.int]) := by
  intro row hrow
  have hschema : row.schema = .ofTypes [.int] := by
    obtain ⟨cell, -, rfl⟩ := List.mem_map.1 hrow
    rfl
  rw [← hschema]
  exact Row.typed_of_made (made_columnRows cells row hrow)

/-- A stored column of integers is what its columns say. -/
theorem stocked_columnStore (cells : List (Option Int64)) : (columnStore cells).Stocked := by
  apply PageStore.stocked_of_made
  apply PageStore.furnished_insertAll
  · exact PageStore.furnished_createTable (PageStore.furnished_empty 1) _ _
  · exact made_columnRows cells

/-- A stored column of integers is joined with one at hand. The join gives a row, and that is what the
columns of both say. -/
theorem rows_typed_of_columns :
    let store := columnStore [some 4, none]
    ∃ scan s row, Scan.make store ⟨0⟩ "c" = .ok scan ∧
      Stream.join { strategy := .nestedLoop } 0 ⟨0, .eq, 0⟩ (ofScan scan) (column [some 4]) =
        .ok s ∧
      (Cursor.next store (s.node.performAll store [.start])).result = .ok row ∧
      row.cells = [some (.int 4), some (.int 4)] ∧
      row.Typed (Cursor.schema (s.node.performAll store [.start])) := by
  intro store
  have hstore : store.Reached := reached_columnStore _
  have hrows : store.Stocked := stocked_columnStore _
  obtain ⟨scan, hscan⟩ : ∃ scan, Scan.make store ⟨0⟩ "c" = .ok scan := ⟨_, rfl⟩
  obtain ⟨s, hjoin⟩ : ∃ s, Stream.join { strategy := .nestedLoop } 0 ⟨0, .eq, 0⟩ (ofScan scan)
      (column [some 4]) = .ok s := by
    cases hscan
    exact ⟨_, rfl⟩
  have hbuilt : s.Built store := .join (.scan hscan) (built_column store _) hjoin
  have hleaves : s.node.Leaves Materialized.Stocked fun _ => True := by
    cases hscan
    cases hjoin
    exact ⟨trivial, typed_columnRows _⟩
  -- the join is closed, and opens with one row
  obtain ⟨hclosed, row, hopening, hcells⟩ : s.node.AllClosed ∧ ∃ row : Row,
      (s.node.profile store).opening = .ok ⟨[row], none⟩ ∧
        row.cells = [some (.int 4), some (.int 4)] := by
    cases hscan
    cases hjoin
    exact ⟨⟨rfl, rfl, rfl⟩, _, rfl, rfl⟩
  have hholds := Node.profile_holds (PageStore.sound_of_reached hstore) (wellFormed_of_built hbuilt)
  have hall := Node.closed_self store hclosed
  obtain ⟨full, hfull, hshows⟩ := hholds.start.of_ok hall (hholds.start_of_opening hall hopening)
  cases hopening.symm.trans hfull
  have hnext : (Cursor.next store (s.node.performAll store [.start])).result = .ok row := by
    show (Cursor.next store (Request.start.perform store s.node).state).result = _
    rw [(Request.perform_start store s.node).2]
    exact ((hholds.plays hopening).next hshows).1
  obtain ⟨-, -, htyped, -⟩ := rows_typed hstore hrows hbuilt hleaves .refl [.start]
  exact ⟨scan, s, row, hscan, hjoin, hnext, hcells, htyped row hnext⟩

end Stream

end RowStream
