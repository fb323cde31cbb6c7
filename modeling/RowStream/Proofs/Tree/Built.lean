import RowStream.Proofs.Stream.Columns
import RowStream.Proofs.Tree.Profile

/-!
# `RowStream.Proofs.Tree.Built` — the trees that can come about

A tree is put together from leaves, and may be used, taken apart and put together anew while the
store goes on changing and others take bytes from the accounts of its joins. Whatever is done, its
settings fit each other and the store.

## Contents
- `Budget.Shared` — what others may do to an account.
- `Stream.Built` — the trees that can come about over a store.
- `Join.of_make`, `Aggregate.of_make`, `Scan.wellSet_of_make` — what the builders promise.
- `Stream.of_join`, `Stream.of_aggregate`, `Stream.Rebinds` — what building and rebinding a tree leads
  to.
- `Stream.wellFormed_of_built` — every tree that can come about is well-formed.
- `Stream.plan_of_started` — what an aggregate keeps is what its child, once opened, still asks for.
- `Stream.column`, `Stream.columnStore` — a small tree of this kind, and a small store.
-/

namespace RowStream

/-- Something that others do to accounts: they take bytes, as many as there are, and give bytes
back. -/
def Budget.Shared (f : Budget → Budget) : Prop :=
  ∀ b, b.used ≤ b.capacity →
    (f b).account = b.account ∧ (f b).capacity = b.capacity ∧ (f b).used ≤ b.capacity

/-- The trees that can come about over a store. -/
inductive Stream.Built [Join.Sorting] [Grouping.Listing] : PageStore → Stream → Prop where
  /-- Rows at hand. -/
  | materialized (store : PageStore) (schema : Schema) (rows : List Row) :
    Built store (.ofMaterialized { schema, rows })
  /-- The scan of a table. -/
  | scan {store : PageStore} {table : TableId} {qualifier : String} {s : Scan} :
    Scan.make store table qualifier = .ok s → Built store (.ofScan s)
  /-- A scan that is pointed at another table. -/
  | reset {store : PageStore} {s : Scan} (table : TableId) (qualifier : String) :
    Built store (.ofScan s) → Built store (.ofScan (s.reset store table qualifier).2)
  /-- A cover. -/
  | cover {store : PageStore} {s : Stream} : Built store s → Built store s.cover
  /-- The join of two trees. -/
  | join {store : PageStore} {config : Config} {account : Nat} {p : Predicate}
    {left right s : Stream} :
    Built store left → Built store right → Stream.join config account p left right = .ok s →
      Built store s
  /-- The groups of a tree. -/
  | aggregate {store : PageStore} {child s : Stream} {field : Nat} {groupField : Option Nat}
    {fn : AggregateFn} :
    Built store child → Stream.aggregate child field groupField fn = .ok s → Built store s
  /-- A join with another strategy. -/
  | setStrategy {store : PageStore} {s : Stream} (strategy : Strategy) :
    Built store s → Built store (s.setStrategy strategy)
  /-- A join or an aggregate with other children. -/
  | setChildren {store : PageStore} {s s' : Stream} {children : List Stream} :
    Built store s → (∀ child ∈ children, Built store child) → s.setChildren children = .ok s' →
      Built store s'
  /-- A tree after a call. -/
  | call {store : PageStore} {s : Stream} (request : Request) :
    Built store s → Built store (s.perform store request).2
  /-- A tree from whose accounts others have taken bytes, or given some back. -/
  | share {store : PageStore} {s : Stream} {f : Budget → Budget} :
    Budget.Shared f → Built store s → Built store { s with node := s.node.mapBudgets f }
  /-- A tree after a step of the store. -/
  | elapse {store store' : PageStore} {s : Stream} :
    store.Step store' → Built store s → Built store' s

open Call

variable {store : PageStore}

/-! ## What the builders promise -/

/-- A scan that is made fits the store. -/
theorem Scan.wellSet_of_make {table : TableId} {qualifier : String} {s : Scan}
    (h : Scan.make store table qualifier = .ok s) : s.WellSet store := by
  obtain ⟨rfl, -, t, ht, hschema⟩ := Scan.of_make h
  refine ⟨t.schema, PageStore.columns?_of_table ht, ?_⟩
  rw [hschema]
  exact t.schema.qualify_agrees qualifier

namespace Join

variable {σ τ : Type} [Cursor σ] [Cursor τ]

/-- What is asked of the settings of a join, and the join that is made of them. -/
theorem of_make {config : Config} {account : Nat} {p : Predicate} {left : σ} {right : τ}
    {j : Join σ τ} (h : make config account p left right = .ok j) :
    config.validate = .ok () ∧ checkFields p (Cursor.schema left) (Cursor.schema right) = .ok () ∧
      j = { predicate := p
            schema := (Cursor.schema left).append (Cursor.schema right)
            strategy := config.strategy
            bufferBytes := config.joinBufferBytes
            budget := { account, capacity := Word.saturatingMul config.joinBufferBytes 2 }
            left, right } := by
  unfold make at h
  cases hv : config.validate with
  | error e => simp [hv, bind, Except.bind] at h
  | ok u =>
    cases hc : checkFields p (Cursor.schema left) (Cursor.schema right) with
    | error e => simp [hv, hc, bind, Except.bind] at h
    | ok u =>
      simp only [hv, hc, bind, Except.bind, Call.mapError_ok, pure, Except.pure, Except.ok.injEq] at h
      exact ⟨rfl, rfl, h.symm⟩

/-- The buffer of validated settings is far below the top of the words. -/
theorem capacity_lt_top {bytes : Nat} (h : bytes ≤ maxJoinBufferBytes) :
    Word.saturatingMul bytes 2 = 2 * bytes ∧ 2 * bytes < Word.top := by
  unfold maxJoinBufferBytes at h
  unfold Word.saturatingMul Word.top Word.limit
  omega

/-- A join that is made fits its sides. -/
theorem wellSet_of_make {config : Config} {account : Nat} {p : Predicate} {left : σ} {right : τ}
    {j : Join σ τ} (h : make config account p left right = .ok j) :
    j.bare.WellSet (Cursor.schema left) (Cursor.schema right) := by
  obtain ⟨hvalid, hfields, rfl⟩ := of_make h
  obtain ⟨hpos, hle, -⟩ := (Config.validate_eq_ok_iff config).1 hvalid
  obtain ⟨hcapacity, htop⟩ := capacity_lt_top hle
  exact {
    sound := ⟨Nat.zero_le _, hcapacity ▸ htop⟩
    capacity_eq := rfl
    buffer_pos := hpos
    buffer_le := hle
    fields := hfields
    schema_eq := rfl }

variable {σ' τ' : Type} [Cursor σ'] [Cursor τ']

omit [Cursor σ] [Cursor τ] in
/-- What is asked of a join and of the children that it is given, and the join over them. -/
theorem eq_of_setChildren {j : Join σ τ} {left : σ'} {right : τ'} {j' : Join σ' τ'}
    (h : j.setChildren left right = .ok j') :
    j.pending = none ∧
      checkFields j.predicate (Cursor.schema left) (Cursor.schema right) = .ok () ∧
      j' = { j with
        schema := (Cursor.schema left).append (Cursor.schema right)
        left, right } := by
  unfold setChildren at h
  cases hopen : j.checkClosed with
  | error e => simp [hopen, bind, Except.bind] at h
  | ok u =>
    cases hc : checkFields j.predicate (Cursor.schema left) (Cursor.schema right) with
    | error e => simp [hopen, hc, bind, Except.bind] at h
    | ok u =>
      simp only [hopen, hc, bind, Except.bind, pure, Except.pure, Except.ok.injEq] at h
      refine ⟨?_, rfl, h.symm⟩
      unfold checkClosed at hopen
      by_cases hpending : j.pending.isSome <;> simp_all

omit [Cursor σ] [Cursor τ] in
/-- A join fits the children that it is given. -/
theorem of_setChildren {ls rs : Schema} {j : Join σ τ} (hj : j.bare.WellSet ls rs) {left : σ'}
    {right : τ'} {j' : Join σ' τ'} (h : j.setChildren left right = .ok j') :
    j'.bare.WellSet (Cursor.schema left) (Cursor.schema right) ∧ j'.left = left ∧
      j'.right = right := by
  obtain ⟨-, hc, rfl⟩ := eq_of_setChildren h
  exact ⟨{ hj with fields := hc, schema_eq := rfl }, rfl, rfl⟩

end Join

namespace Aggregate

variable {σ σ' : Type} [Cursor σ] [Cursor σ']

/-- What is asked of the settings of an aggregate, and the aggregate that is made of them. -/
theorem of_make {child : σ} {field : Nat} {groupField : Option Nat} {fn : AggregateFn}
    {a : Aggregate σ} (h : make child field groupField fn = .ok a) :
    ∃ blank schema, plan (Cursor.schema child) field groupField fn = .ok (blank, schema) ∧
      a = { child, field, groupField, fn, schema, blank } := by
  unfold make at h
  cases hp : plan (Cursor.schema child) field groupField fn with
  | error e => simp [hp, bind, Except.bind] at h
  | ok planned =>
    simp only [hp, bind, Except.bind, pure, Except.pure, Except.ok.injEq] at h
    exact ⟨planned.1, planned.2, rfl, h.symm⟩

/-- An aggregate that is made fits its child. -/
theorem wellSet_of_make {child : σ} {field : Nat} {groupField : Option Nat} {fn : AggregateFn}
    {a : Aggregate σ} (h : make child field groupField fn = .ok a) :
    a.bare.WellSet (Cursor.schema child) ∧ a.child = child := by
  obtain ⟨blank, schema, hplan, rfl⟩ := of_make h
  exact ⟨hplan, rfl⟩

omit [Cursor σ] in
/-- What is asked of an aggregate and of the child that it is given, and the aggregate over it. -/
theorem eq_of_setChild {a : Aggregate σ} {child : σ'} {a' : Aggregate σ'}
    (h : a.setChild child = .ok a') :
    a.run = none ∧ ∃ blank schema,
      plan (Cursor.schema child) a.field a.groupField a.fn = .ok (blank, schema) ∧
        a' = { a with child, schema, blank } := by
  unfold setChild checkClosed at h
  cases hrun : a.run with
  | some run => simp [hrun, bind, Except.bind] at h
  | none =>
    cases hplan : plan (Cursor.schema child) a.field a.groupField a.fn with
    | error e => simp [hrun, hplan, bind, Except.bind] at h
    | ok planned =>
      simp only [hrun, hplan, bind, Except.bind, pure, Except.pure] at h
      exact ⟨rfl, planned.1, planned.2, rfl, (Except.ok.inj h).symm⟩

omit [Cursor σ] in
/-- An aggregate that is given another child is like one that is made anew: nothing else was left of it. -/
theorem make_of_setChild {a : Aggregate σ} {child : σ'} {a' : Aggregate σ'}
    (h : a.setChild child = .ok a') : make child a.field a.groupField a.fn = .ok a' := by
  obtain ⟨hrun, blank, schema, hplan, rfl⟩ := eq_of_setChild h
  unfold make
  rw [hplan, hrun]
  rfl

omit [Cursor σ] in
/-- An aggregate fits the child that it is given. -/
theorem of_setChild {a : Aggregate σ} {child : σ'} {a' : Aggregate σ'}
    (h : a.setChild child = .ok a') :
    a'.bare.WellSet (Cursor.schema child) ∧ a'.child = child :=
  wellSet_of_make (make_of_setChild h)

end Aggregate

variable [Join.Sorting] [Grouping.Listing]

/-! ## Well-formed trees stay well-formed -/

namespace Node

omit [Join.Sorting] [Grouping.Listing] in
/-- What others do to accounts leaves a sound account behind. -/
theorem sound_of_shared {f : Budget → Budget} (hf : Budget.Shared f) {b : Budget} (hb : b.Sound) :
    (f b).Sound := by
  obtain ⟨-, hcapacity, hused⟩ := hf b hb.used_le
  exact ⟨hcapacity ▸ hused, hcapacity ▸ hb.capacity_lt⟩

theorem schema_mapBudgets (f : Budget → Budget) {shape : Shape} (t : Node shape) :
    Cursor.schema (t.mapBudgets f) = Cursor.schema t := by
  induction shape with
  | materialized => rfl
  | scan => rfl
  | sealed inner ih => exact ih _
  | join left right => rfl
  | aggregate child => rfl

/-- What others do to accounts leaves a well-formed tree behind. -/
theorem wellFormed_mapBudgets {f : Budget → Budget} (hf : Budget.Shared f) {shape : Shape}
    {t : Node shape} (h : t.WellFormed store) : (t.mapBudgets f).WellFormed store := by
  induction shape with
  | materialized => trivial
  | scan => exact h
  | sealed inner ih => exact ih h
  | join left right ihl ihr =>
    refine ⟨?_, ihl h.2.1, ihr h.2.2⟩
    -- the account is the one thing that changed
    have hset := h.1
    rw [← schema_mapBudgets f (Join.left t), ← schema_mapBudgets f (Join.right t)] at hset
    have hb := Budget.sound_unmarked_iff.1 hset.sound
    exact {
      sound := Budget.sound_unmarked_iff.2 (sound_of_shared hf hb)
      capacity_eq := (hf _ hb.used_le).2.1.trans hset.capacity_eq
      buffer_pos := hset.buffer_pos
      buffer_le := hset.buffer_le
      fields := hset.fields
      schema_eq := hset.schema_eq }
  | aggregate child ih =>
    refine ⟨?_, ih h.2⟩
    have hset := h.1
    rw [← schema_mapBudgets f (Aggregate.child t)] at hset
    exact hset

/-- A store that changes leaves a tree well-formed. -/
theorem wellFormed_of_step {store' : PageStore} (hstep : store.Step store') {shape : Shape}
    {t : Node shape} (h : t.WellFormed store) : t.WellFormed store' := by
  induction shape with
  | materialized => trivial
  | scan =>
    obtain ⟨columns, hcolumns, hagrees⟩ := h
    exact ⟨columns, hstep.columns_eq hcolumns, hagrees⟩
  | sealed inner ih => exact ih h
  | join left right ihl ihr => exact ⟨h.1, ihl h.2.1, ihr h.2.2⟩
  | aggregate child ih => exact ⟨h.1, ih h.2⟩

/-- A call leaves a tree with its profile. -/
theorem own_perform {store' : PageStore} (request : Request) {shape : Shape} {t : Node shape}
    (h : t.WellFormed store) : (t.profile store).own (request.perform store' t).state := by
  have hstays := stays store' h
  refine request.perform_leads hstays.start ?_ ?_ ?_ (fun _ => hstays.close) (own_self store t)
  · exact hstays.reads.hasNext.imp (fun _ => id) (fun _ _ => id) (fun _ _ => And.right)
  · exact hstays.reads.next.imp (fun _ => id) (fun _ _ => id) (fun _ _ => And.right)
  · exact hstays.reads.rewind.imp (fun _ => id) (fun _ _ => id) (fun _ _ => And.right)

/-- A call leaves a tree well-formed, since its profile decides that. -/
theorem wellFormed_perform {store' : PageStore} (request : Request) {shape : Shape}
    {t : Node shape} (h : t.WellFormed store) :
    (request.perform store' t).state.WellFormed store :=
  wellFormed_of_own h (own_perform request h)

end Node

namespace Stream

/-- What building a join builds. -/
theorem of_join {config : Config} {account : Nat} {p : Predicate} {left right s : Stream}
    (h : Stream.join config account p left right = .ok s) :
    ∃ j, Join.make config account p left.node right.node = .ok j ∧
      s = ⟨.join left.shape right.shape, j⟩ := by
  unfold Stream.join at h
  cases hj : Join.make config account p left.node right.node with
  | error e => simp [hj, bind, Except.bind] at h
  | ok j =>
    simp only [hj, bind, Except.bind, pure, Except.pure, Except.ok.injEq] at h
    exact ⟨j, rfl, h.symm⟩

/-- What building an aggregate builds. -/
theorem of_aggregate {child s : Stream} {field : Nat} {groupField : Option Nat} {fn : AggregateFn}
    (h : Stream.aggregate child field groupField fn = .ok s) :
    ∃ a, Aggregate.make child.node field groupField fn = .ok a ∧ s = ⟨.aggregate child.shape, a⟩ := by
  unfold Stream.aggregate at h
  cases ha : Aggregate.make child.node field groupField fn with
  | error e => simp [ha, bind, Except.bind] at h
  | ok a =>
    simp only [ha, bind, Except.bind, pure, Except.pure, Except.ok.injEq] at h
    exact ⟨a, rfl, h.symm⟩

/-- Two children are what a join takes. -/
theorem of_setChildren_join {l r : Shape} {j : Join (Node l) (Node r)} {children : List Stream}
    {s' : Stream} (h : setChildren ⟨.join l r, j⟩ children = .ok s') :
    ∃ left right j', children = [left, right] ∧ Join.setChildren j left.node right.node = .ok j' ∧
      s' = ⟨.join left.shape right.shape, j'⟩ := by
  unfold setChildren at h
  match children with
  | [left, right] =>
    rw [replaceChildren_pair] at h
    cases hj : Join.setChildren j left.node right.node with
    | error e => simp [hj] at h
    | ok j' =>
      simp only [hj, Except.ok.injEq] at h
      exact ⟨left, right, j', rfl, hj, h.symm⟩
  | [] | [_] | _ :: _ :: _ :: _ =>
    rw [replaceChildren_of_not_pair j (by simp)] at h
    cases hopen : Join.checkClosed j <;> simp [hopen] at h

/-- One child is what an aggregate takes. -/
theorem of_setChildren_aggregate {c : Shape} {a : Aggregate (Node c)} {children : List Stream}
    {s' : Stream} (h : setChildren ⟨.aggregate c, a⟩ children = .ok s') :
    ∃ child a', children = [child] ∧ Aggregate.setChild a child.node = .ok a' ∧
      s' = ⟨.aggregate child.shape, a'⟩ := by
  unfold setChildren at h
  match children with
  | [child] =>
    rw [replaceChildren_single] at h
    cases ha : Aggregate.setChild a child.node with
    | error e => simp [ha] at h
    | ok a' =>
      simp only [ha, Except.ok.injEq] at h
      exact ⟨child, a', rfl, ha, h.symm⟩
  | [] | _ :: _ :: _ =>
    rw [replaceChildren_of_not_single a (by simp)] at h
    cases hopen : Aggregate.checkClosed a <;> simp [hopen] at h

/-- What comes of replacing the children of a stream. -/
inductive Rebinds : Stream → List Stream → Stream → Prop where
  /-- A join gets two children. -/
  | join {l r : Shape} {j : Join (Node l) (Node r)} {left right : Stream}
    {j' : Join (Node left.shape) (Node right.shape)} :
    Join.setChildren j left.node right.node = .ok j' →
      Rebinds ⟨.join l r, j⟩ [left, right] ⟨.join left.shape right.shape, j'⟩
  /-- An aggregate gets a child. -/
  | aggregate {c : Shape} {a : Aggregate (Node c)} {child : Stream}
    {a' : Aggregate (Node child.shape)} :
    Aggregate.setChild a child.node = .ok a' →
      Rebinds ⟨.aggregate c, a⟩ [child] ⟨.aggregate child.shape, a'⟩
  /-- A stream without children of its own is left alone. -/
  | alone (s : Stream) (children : List Stream) : Rebinds s children s

/-- Where the children of a stream are replaced, they are as many as it has. -/
theorem rebinds_of_setChildren {s s' : Stream} {children : List Stream}
    (h : s.setChildren children = .ok s') : Rebinds s children s' := by
  obtain ⟨shape, t⟩ := s
  cases shape with
  | join l r =>
    obtain ⟨left, right, j', rfl, hj, rfl⟩ := of_setChildren_join h
    exact .join hj
  | aggregate c =>
    obtain ⟨child, a', rfl, ha, rfl⟩ := of_setChildren_aggregate h
    exact .aggregate ha
  | materialized =>
    cases h
    exact .alone _ _
  | scan =>
    cases h
    exact .alone _ _
  | sealed inner =>
    cases h
    exact .alone _ _

theorem wellFormed_join {config : Config} {account : Nat} {p : Predicate} {left right s : Stream}
    (hl : left.node.WellFormed store) (hr : right.node.WellFormed store)
    (h : Stream.join config account p left right = .ok s) : s.node.WellFormed store := by
  obtain ⟨j, hj, rfl⟩ := of_join h
  have hset := Join.wellSet_of_make hj
  obtain ⟨-, -, rfl⟩ := Join.of_make hj
  exact ⟨hset, hl, hr⟩

theorem wellFormed_aggregate {child s : Stream} {field : Nat} {groupField : Option Nat}
    {fn : AggregateFn} (hc : child.node.WellFormed store)
    (h : Stream.aggregate child field groupField fn = .ok s) : s.node.WellFormed store := by
  obtain ⟨a, ha, rfl⟩ := of_aggregate h
  obtain ⟨hset, hchild⟩ := Aggregate.wellSet_of_make ha
  rw [← hchild] at hset hc
  exact ⟨hset, hc⟩

theorem wellFormed_setStrategy {s : Stream} (h : s.node.WellFormed store) (strategy : Strategy) :
    (s.setStrategy strategy).node.WellFormed store := by
  obtain ⟨shape, t⟩ := s
  cases shape with
  | join left right => exact ⟨{ h.1 with }, h.2⟩
  | _ => exact h

theorem wellFormed_setChildren {s s' : Stream} {children : List Stream}
    (h : s.node.WellFormed store) (hchildren : ∀ child ∈ children, child.node.WellFormed store)
    (hset : s.setChildren children = .ok s') : s'.node.WellFormed store := by
  cases rebinds_of_setChildren hset with
  | @join l r j left right j' hj =>
    obtain ⟨hwell, hleft, hright⟩ := Join.of_setChildren h.1 hj
    have hl := hchildren left (by simp)
    have hr := hchildren right (by simp)
    rw [← hleft, ← hright] at hwell
    exact ⟨hwell, hleft ▸ hl, hright ▸ hr⟩
  | @aggregate c a child a' ha =>
    obtain ⟨hwell, hchild⟩ := Aggregate.of_setChild ha
    have hc := hchildren child (by simp)
    rw [← hchild] at hwell
    exact ⟨hwell, hchild ▸ hc⟩
  | alone => exact h

omit [Join.Sorting] [Grouping.Listing] in
theorem wellFormed_reset {s : Scan} (h : s.WellSet store) (table : TableId) (qualifier : String) :
    (s.reset store table qualifier).2.WellSet store := by
  rw [Scan.reset_eq]
  cases hm : Scan.make store table qualifier with
  | ok new => exact Scan.wellSet_of_make hm
  | error e => exact h

/-- Every tree that can come about is well-formed. -/
theorem wellFormed_of_built {s : Stream} (h : s.Built store) : s.node.WellFormed store := by
  induction h with
  | materialized => trivial
  | scan h => exact Scan.wellSet_of_make h
  | reset table qualifier h ih => exact wellFormed_reset ih table qualifier
  | cover h ih => exact ih
  | join _ _ h ihl ihr => exact wellFormed_join ihl ihr h
  | aggregate _ h ih => exact wellFormed_aggregate ih h
  | setStrategy strategy h ih => exact wellFormed_setStrategy ih strategy
  | setChildren _ _ h ih ihs => exact wellFormed_setChildren ih ihs h
  | call request h ih => exact Node.wellFormed_perform request ih
  | share hf h ih => exact Node.wellFormed_mapBudgets hf ih
  | elapse hstep h ih => exact Node.wellFormed_of_step hstep ih

/-- When the child of an aggregate has been opened, what the aggregate keeps since it was given that child
is what it would derive from its columns now. -/
theorem plan_of_started {c : Shape} {a : Aggregate (Node c)} (h : Stream.Built store ⟨.aggregate c, a⟩) :
    Aggregate.plan (Cursor.schema (Cursor.start store a.child).state) a.field a.groupField a.fn =
      .ok (a.blank, a.schema) := by
  obtain ⟨hset, hchild⟩ := wellFormed_of_built h
  have hstarted : (a.child.profile store).own (Cursor.start store a.child).state := by
    rw [← (Request.perform_start store a.child).2]
    exact Node.own_perform .start hchild
  rw [Node.schema_eq_of_own hstarted]
  exact hset

/-! ## Columns of integers -/

/-- A column of integers at hand. -/
def column (cells : List (Option Int64)) : Stream :=
  .ofMaterialized { schema := .ofTypes [.int], rows := columnRows cells }

theorem built_column (store : PageStore) (cells : List (Option Int64)) :
    (column cells).Built store :=
  Built.materialized store _ _

/-- A store whose only table is a column of integers, with one row on each page. -/
def columnStore (cells : List (Option Int64)) : PageStore :=
  (((PageStore.empty 1).createTable "column" (.ofTypes [.int])).2.insertAll ⟨0⟩
    (columnRows cells)).2

omit [Join.Sorting] [Grouping.Listing] in
theorem reached_columnStore (cells : List (Option Int64)) : (columnStore cells).Reached :=
  (PageStore.Reached.step (.empty 1) (.createTable _ _ _)).insertAll _ _

end Stream

end RowStream
