import RowStream.Proofs.Stream.Reread

/-!
# `RowStream.Proofs.Stream.Fetches` — how many pages a call is handed

A call lists the pages that it was handed, so the pages of one table are counted in that list. What a
call that answers has cost is what its parts have cost, and the rules follow the ways in which calls are
put together. A stream whose passes all cost the same is known by its rows and that number, and a loop
over it costs one pass and what its steps cost.

## Contents
- `Call.Fetches` — from a state, an answer comes at a cost and leaves a state.
- `Fetches.bind`, `Fetches.zoom`, `Fetches.onError`, … — one rule for each way of putting calls together.
- `Cursor.pass` — reading all rows and forgetting them.
- `Gives.fetches` — the cost of a loop over the rows of one pass.
- `Cursor.Rescans`, `Rescans.foldWith`, `Rescans.fold`, `Rescans.foldAny` — loops over a stream whose
  passes cost the same.
- `Cursor.Begins` — calls that lead to such a stream.
-/

namespace RowStream

namespace Call

variable {σ τ α β : Type} {store : PageStore} {x : TableId}

/-- From every state with `P`, an answer `a` leaves a state with `Q a n`, where `n` is the number of
pages of the table `x` that were handed out. Of a failure nothing is said. -/
def Fetches (store : PageStore) (x : TableId) (P : σ → Prop) (c : Call σ α)
    (Q : α → Nat → σ → Prop) : Prop :=
  ∀ s a, P s → (c store s).result = .ok a → Q a ((c store s).reads.count x) (c store s).state

namespace Fetches

variable {P P' : σ → Prop} {Q Q' : α → Nat → σ → Prop}

/-- Less may be assumed and more concluded. -/
theorem imp {c : Call σ α} (h : Fetches store x P c Q) (hP : ∀ s, P' s → P s)
    (hQ : ∀ a n s, Q a n s → Q' a n s) : Fetches store x P' c Q' :=
  fun s a hs ha => hQ a _ _ (h s a (hP s hs) ha)

/-- The cost may be judged state by state. -/
theorem each {c : Call σ α} (h : ∀ s, P s → Fetches store x (· = s) c Q) : Fetches store x P c Q :=
  fun s a hs => h s hs s a rfl

/-- What does not depend on the state may be assumed apart from it. -/
theorem given {A : Prop} {c : Call σ α} (h : A → Fetches store x P c Q) :
    Fetches store x (fun s => A ∧ P s) c Q := fun s a hs => h hs.1 s a hs.2

/-- A call that is handed no page costs nothing. -/
theorem free {c : Call σ α} (hreads : ∀ s, (c store s).reads = [])
    {E : StreamError → σ → Prop} (h : Triple store P c (fun a => Q a 0) E) :
    Fetches store x P c Q := by
  intro s a hs ha
  rw [hreads s]
  exact h.of_ok hs ha

theorem pure {a : α} (h : ∀ s, P s → Q a 0 s) : Fetches store x P (Pure.pure a : Call σ α) Q :=
  free (E := fun _ _ => True) (fun _ => rfl) (Triple.pure h)

theorem ofExcept {r : Except StreamError α} (h : ∀ s a, P s → r = .ok a → Q a 0 s) :
    Fetches store x P (Call.ofExcept r) Q :=
  free (E := fun _ _ => True) (fun _ => rfl) (Triple.ofExcept h fun _ _ _ _ => trivial)

/-- A failure costs nothing that is counted. -/
theorem fail (e : StreamError) : Fetches store x P (Call.fail e : Call σ α) Q := by
  intro s a _ ha
  cases ha

theorem modify {Q : Unit → Nat → σ → Prop} {f : σ → σ} (h : ∀ s, P s → Q () 0 (f s)) :
    Fetches store x P (Call.modify f) Q :=
  free (E := fun _ _ => True) (fun _ => rfl) (Triple.modify h)

/-- Two calls cost what the first and the second cost. -/
theorem bind {R : β → Nat → σ → Prop} {c : Call σ β} {f : β → Call σ α}
    (hc : Fetches store x P c R)
    (hf : ∀ b m, Fetches store x (R b m) (f b) fun a n => Q a (m + n)) :
    Fetches store x P (c >>= f) Q := by
  intro s a hs ha
  obtain ⟨b, hb, hfa, -⟩ := ok_of_bind ha
  rw [bind_of_ok hb, List.count_append]
  exact hf b _ _ a (hc s b hs hb) hfa

/-- A first call that is handed no page plays no part in the cost. -/
theorem bindFree {R : β → σ → Prop} {c : Call σ β} {f : β → Call σ α}
    (hreads : ∀ s, (c store s).reads = []) {E : StreamError → σ → Prop} (hc : Triple store P c R E)
    (hf : ∀ b, Fetches store x (R b) (f b) Q) : Fetches store x P (c >>= f) Q := by
  intro s a hs ha
  obtain ⟨b, hb, hfa, -⟩ := ok_of_bind ha
  rw [bind_of_ok hb, hreads s, List.nil_append]
  exact hf b _ a (hc.of_ok hs hb) hfa

/-- A call that begins by looking at its state is judged for each state. -/
theorem getBind {f : σ → Call σ α} (h : ∀ s, P s → Fetches store x (· = s) (f s) Q) :
    Fetches store x P (Call.get >>= f) Q := by
  intro s a hs ha
  rw [bind_of_ok (c := Call.get) (a := s) rfl] at ha ⊢
  exact h s hs s a rfl ha

/-- The same from one state. -/
theorem getBindAt {f : σ → Call σ α} {s : σ} (h : Fetches store x (· = s) (f s) Q) :
    Fetches store x (· = s) (Call.get >>= f) Q :=
  getBind fun _ ht => ht ▸ h

/-- A call on a part costs what it costs. -/
theorem zoom {part : σ → τ} {putPart : τ → σ → σ} {c : Call τ α}
    (h : ∀ s, P s → Fetches store x (· = part s) c fun a n t => Q a n (putPart t s)) :
    Fetches store x P (Call.zoom part putPart c) Q :=
  fun s a hs ha => h s hs (part s) a rfl ha

theorem onLeft {P : σ → Prop} {Q : α → Nat → σ → Prop} {F : τ → Prop} {c : Call σ α}
    (h : Fetches store x P c Q) :
    Fetches store x (fun s => P s.1 ∧ F s.2) (Call.onLeft c : Call (σ × τ) α)
      fun a n s => Q a n s.1 ∧ F s.2 := by
  apply zoom
  rintro ⟨s, t⟩ ⟨hs, ht⟩
  exact h.imp (fun _ hx => hx ▸ hs) fun _ _ _ hq => ⟨hq, ht⟩

theorem onRight {P : τ → Prop} {Q : α → Nat → τ → Prop} {F : σ → Prop} {c : Call τ α}
    (h : Fetches store x P c Q) :
    Fetches store x (fun s => F s.1 ∧ P s.2) (Call.onRight c : Call (σ × τ) α)
      fun a n s => F s.1 ∧ Q a n s.2 := by
  apply zoom
  rintro ⟨s, t⟩ ⟨hs, ht⟩
  exact h.imp (fun _ hx => hx ▸ ht) fun _ _ _ hq => ⟨hs, hq⟩

/-- Where nothing fails, nothing is cleaned up. -/
theorem onError {cleanUp : σ → σ} {c : Call σ α} (h : Fetches store x P c Q) :
    Fetches store x P (Call.onError cleanUp c) Q := by
  intro s a hs ha
  obtain ⟨hc, heq⟩ := ok_of_onError ha
  rw [heq]
  exact h s a hs hc

theorem ensuring {cleanUp : σ → σ} {c : Call σ α}
    (h : Fetches store x P c fun a n s => Q a n (cleanUp s)) :
    Fetches store x P (Call.ensuring cleanUp c) Q := fun s a hs ha => h s a hs ha

end Fetches

end Call

namespace Cursor

open Call

variable {σ τ β : Type} [Cursor σ] {store : PageStore} {x : TableId}

/-! ## One pass -/

/-- Reads all rows and forgets them. -/
def pass : Call σ Unit := fold (fun _ _ => .ok ()) ()

/-- A pass on which no row is left costs the look for a row. -/
theorem reads_pass_nil {s : σ} (hmore : (Cursor.hasNext store s).result = .ok false) :
    (pass store s).reads = (Cursor.hasNext store s).reads := by
  unfold pass fold
  simp only
  rw [Triple.foldWith_eq, onLeft_bind_of_ok hmore]
  exact List.append_nil _

/-- A pass costs the look for a row, taking it, and the pass over the rows behind it. -/
theorem reads_pass_cons {s : σ} {row : Row} (hmore : (Cursor.hasNext store s).result = .ok true)
    (hrow : (Cursor.next store (Cursor.hasNext store s).state).result = .ok row) :
    (pass store s).reads = (Cursor.hasNext store s).reads ++
      ((Cursor.next store (Cursor.hasNext store s).state).reads ++
        (pass store (Cursor.next store (Cursor.hasNext store s).state).state).reads) := by
  show (foldWith _ () store (s, ())).reads = _
  rw [Triple.foldWith_eq, onLeft_bind_of_ok hmore]
  simp only [if_true]
  rw [onLeft_bind_of_ok hrow, onRight_bind_of_ok (c := Call.ofExcept (.ok ())) (a := ()) rfl]
  rfl

section Loops

variable {rows : List Row} {s : σ} {step : β → Row → Call τ β} {I : List Row → β → Nat → τ → Prop}

/-- A loop over the rows of a pass costs the pass and what its steps cost. `I seen b m` holds when the
rows `seen` are done, at a cost of `m`, and `b` came of them. -/
theorem Gives.fetches (h : Gives store s rows)
    (hstep : ∀ seen row b m, Fetches store x (I seen b m) (step b row) fun b' n =>
      I (seen ++ [row]) b' (m + n)) (seen : List Row) (b : β) (m : Nat) :
    Fetches store x (fun st => st.1 = s ∧ I seen b m st.2) (Cursor.foldWith step b) fun b' n st =>
      Reaches store s st.1 ∧
        ∃ k, n = (pass store s).reads.count x + k ∧ I (seen ++ rows) b' (m + k) st.2 := by
  induction h generalizing seen b m with
  | @nil s hmore =>
    rintro ⟨_, t⟩ b' ⟨rfl, hI⟩ hres
    rw [Triple.foldWith_eq, onLeft_bind_of_ok hmore] at hres ⊢
    cases hres
    refine ⟨Reaches.refl.hasNext, 0, ?_, ?_⟩
    · rw [reads_pass_nil hmore]
      exact congrArg (List.count x) (List.append_nil _)
    · rw [List.append_nil]
      exact hI
  | @cons s row rows hmore hrow _ ih =>
    rintro ⟨_, t⟩ b' ⟨rfl, hI⟩ hres
    rw [Triple.foldWith_eq, onLeft_bind_of_ok hmore] at hres ⊢
    simp only [if_true] at hres ⊢
    rw [onLeft_bind_of_ok hrow] at hres ⊢
    obtain ⟨b₁, hb₁, -⟩ := ok_of_bind (c := Call.onRight (step b row)) hres
    have hstepped : (step b row store t).result = .ok b₁ := hb₁
    have hI₁ := hstep seen row b m t b₁ hI hstepped
    rw [onRight_bind_of_ok hstepped] at hres ⊢
    -- the rows behind the first
    obtain ⟨hreached, k, hk, hI'⟩ := ih (seen ++ [row]) b₁ _ (_, _) b' ⟨rfl, hI₁⟩ hres
    refine ⟨Reaches.refl.hasNext.next.trans hreached,
      (step b row store t).reads.count x + k, ?_, ?_⟩
    · rw [reads_pass_cons hmore hrow]
      simp only [List.count_append, hk]
      omega
    · rw [List.append_assoc, Nat.add_assoc] at hI'
      exact hI'

/-- Wherever calls lead from `s`, a rewind and a pass to the end give the same rows and cost the same
number of pages of the table `x`. -/
structure Rescans (store : PageStore) (x : TableId) (rows : List Row) (k : Nat) (s : σ) : Prop where
  /-- The rows. -/
  redrains : Redrains store rows s
  /-- The cost. -/
  reads_eq : ∀ t, Reaches store s t → (Cursor.rewind store t).reads.count x +
    (pass store (Cursor.rewind store t).state).reads.count x = k

variable {k : Nat}

/-- Going back and reading all rows in a loop costs one pass and what the steps cost. -/
theorem Rescans.foldWith (h : Rescans store x rows k s)
    (hstep : ∀ seen row b m, Fetches store x (I seen b m) (step b row) fun b' n =>
      I (seen ++ [row]) b' (m + n)) (b : β) :
    Fetches store x (fun st => Reaches store s st.1 ∧ I [] b 0 st.2)
      (Call.onLeft Cursor.rewind >>= fun _ => Cursor.foldWith step b) fun b' n st =>
        Reaches store s st.1 ∧ ∃ m, n = k + m ∧ I rows b' m st.2 := by
  rintro ⟨t, u⟩ b' ⟨ht, hI⟩ hres
  obtain ⟨_, hrewind, hdrain, -⟩ := ok_of_bind (h.redrains t ht)
  rw [onLeft_bind_of_ok hrewind] at hres ⊢
  obtain ⟨hreached, m, hm, hI'⟩ :=
    (gives_of_drain hdrain).fetches hstep [] b 0 (_, u) b' ⟨rfl, hI⟩ hres
  refine ⟨ht.rewind.trans hreached, m, ?_, ?_⟩
  · rw [← h.reads_eq t ht, List.count_append, hm, Nat.add_assoc]
  · rw [List.nil_append, Nat.zero_add] at hI'
    exact hI'

/-- Where the steps are pure, it costs one pass. -/
theorem Rescans.fold (h : Rescans store x rows k s) {f : β → Row → Except StreamError β}
    {J : List Row → β → Prop} (hstep : ∀ seen row b b', J seen b → f b row = .ok b' →
      J (seen ++ [row]) b') {b : β} (hb : J [] b) :
    Fetches store x (Reaches store s) (Cursor.rewind >>= fun _ => Cursor.fold f b) fun b' n t =>
      (n = k ∧ J rows b') ∧ Reaches store s t := by
  intro t b' ht hres
  obtain ⟨_, hrewind, hfold, -⟩ := ok_of_bind hres
  -- the second state is idle, and no step costs anything
  have hfree : ∀ seen row b m, Fetches store x (fun _ : Unit => J seen b ∧ m = 0)
      (Call.ofExcept (f b row)) fun b' n _ => J (seen ++ [row]) b' ∧ m + n = 0 := fun seen row b m =>
    Fetches.ofExcept fun _ b' hJ hb' => ⟨hstep seen row b b' hJ.1 hb', hJ.2⟩
  have hcost := h.foldWith (I := fun seen b m _ => J seen b ∧ m = 0) hfree b (t, ()) b' ⟨ht, hb, rfl⟩
  rw [onLeft_bind_of_ok hrewind] at hcost
  rw [bind_of_ok hrewind]
  obtain ⟨hreached, m, hm, hJ, rfl⟩ := hcost hfold
  exact ⟨⟨hm, hJ⟩, hreached⟩

/-- Whatever comes of the rows, it costs one pass. -/
theorem Rescans.foldAny (h : Rescans store x rows k s) (f : β → Row → Except StreamError β) (b : β) :
    Fetches store x (Reaches store s) (Cursor.rewind >>= fun _ => Cursor.fold f b) fun _ n t =>
      n = k ∧ Reaches store s t := by
  have hfold := h.fold (f := f) (J := fun _ _ => True) (fun _ _ _ _ _ _ => trivial) (b := b) trivial
  exact hfold.imp (fun _ => id) fun _ _ _ hdone => ⟨hdone.1.1, hdone.2⟩

/-- Reading all rows and keeping them costs one pass. -/
theorem Rescans.drain (h : Rescans store x rows k s) :
    Fetches store x (Reaches store s) (Cursor.rewind >>= fun _ => Cursor.drain) fun _ n t =>
      n = k ∧ Reaches store s t := by
  unfold Cursor.drain
  rw [← bind_assoc]
  exact (h.foldAny _ _).bind fun _ _ => Fetches.pure fun _ hdone => hdone

/-- A call that goes to the first row of a stream is handed no page, and leads to where every pass gives
the same rows and costs the same. -/
def Begins (store : PageStore) (x : TableId) (rows : List Row) (k : Nat) (c : Call σ Unit) (s : σ) :
    Prop :=
  Fetches store x (· = s) c fun _ n t =>
    n = 0 ∧ Rescans store x rows k t ∧ Cursor.schema t = Cursor.schema s

end Loops

end Cursor

end RowStream
