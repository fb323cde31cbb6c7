import RowStream.Stream.Cursor

/-!
# `RowStream.Proofs.Stream.Triple` — what holds after a call

A call may fail and leaves a state behind in either case, so a triple has two conclusions: one for
the answer and the state after it, one for the error and the state that the failure leaves. The
rules follow the ways in which calls are put together; the rule for reading a stream to its end is
the rule of a loop.

## Contents
- `Call.Triple` — from a state with `P`, an answer comes with `Q` and an error with `E`.
- `Triple.bind`, `Triple.getBind`, `Triple.zoom`, `Triple.onError`, … — one rule for each way of
  putting calls together.
- `Triple.still` — a call that never changes the state.
- `Triple.foldWith`, `Triple.fold` — the loop rules.
- `Call.Computes` — a call whose result is known and which keeps an invariant.
-/

namespace RowStream.Call

variable {σ τ α β : Type} {store : PageStore}

/-- What an answer is turned into changes nothing else. -/
theorem bind_return (store : PageStore) (c : Call σ β) (g : β → α) (s : σ) :
    ((c >>= fun b => return g b) store s).result = (c store s).result.map g ∧
      ((c >>= fun b => return g b) store s).state = (c store s).state := by
  cases h : (c store s).result with
  | ok b =>
    rw [bind_of_ok h]
    exact ⟨rfl, rfl⟩
  | error e =>
    rw [bind_of_error h]
    exact ⟨rfl, rfl⟩

/-- Where two calls in turn answer, the first one did, and the second one answered from there. -/
theorem ok_of_bind {c : Call σ β} {f : β → Call σ α} {s : σ} {a : α}
    (h : ((c >>= f) store s).result = .ok a) :
    ∃ b, (c store s).result = .ok b ∧ (f b store (c store s).state).result = .ok a ∧
      ((c >>= f) store s).state = (f b store (c store s).state).state := by
  cases hb : (c store s).result with
  | ok b =>
    rw [bind_of_ok hb] at h ⊢
    exact ⟨b, rfl, h, rfl⟩
  | error e =>
    rw [bind_of_error hb] at h
    cases h

/-- Where nothing failed, nothing was cleaned up. -/
theorem ok_of_onError {cleanUp : σ → σ} {c : Call σ α} {s : σ} {a : α}
    (h : (Call.onError cleanUp c store s).result = .ok a) :
    (c store s).result = .ok a ∧ Call.onError cleanUp c store s = c store s := by
  unfold Call.onError at h ⊢
  cases hr : (c store s).result with
  | ok b =>
    simp only [hr] at h ⊢
    exact ⟨h, trivial⟩
  | error e =>
    simp only [hr] at h
    cases h

/-- Turning an answer into another one reads no page, either. -/
theorem bind_return_of_eq {store : PageStore} {c : Call σ β} {g : β → α} {s s' : σ}
    {r : Except StreamError β} (h : c store s = { result := r, state := s' }) :
    (c >>= fun b => return g b) store s = { result := r.map g, state := s' } := by
  cases r with
  | ok b =>
    rw [bind_of_ok (a := b) (congrArg Outcome.result h), h]
    rfl
  | error e =>
    rw [bind_of_error (e := e) (congrArg Outcome.result h), h]
    rfl

/-- Two calls on the first state in turn are one call on it. -/
theorem onLeft_bind (c : Call σ α) (f : α → Call σ β) :
    (Call.onLeft (c >>= f) : Call (σ × τ) β) = Call.onLeft c >>= fun a => Call.onLeft (f a) := by
  funext store s
  cases h : (c store s.1).result <;> simp [Call.onLeft, zoom, Bind.bind, Call.bind, h]

/-- Two calls on the second state in turn are one call on it. -/
theorem onRight_bind (c : Call τ α) (f : α → Call τ β) :
    (Call.onRight (c >>= f) : Call (σ × τ) β) =
      Call.onRight c >>= fun a => Call.onRight (f a) := by
  funext store s
  cases h : (c store s.2).result <;> simp [Call.onRight, zoom, Bind.bind, Call.bind, h]

section Parts

variable {f : α → Call (σ × τ) β} {s : σ} {t : τ} {a : α} {e : StreamError}

/-- After an answer of the first state, the second call goes on from what that state became. -/
theorem onLeft_bind_of_ok {c : Call σ α} (h : (c store s).result = .ok a) :
    (Call.onLeft c >>= f) store (s, t) =
      { f a store ((c store s).state, t) with
        reads := (c store s).reads ++ (f a store ((c store s).state, t)).reads } :=
  bind_of_ok (c := Call.onLeft c) (s := (s, t)) h

theorem onLeft_bind_of_error {c : Call σ α} (h : (c store s).result = .error e) :
    (Call.onLeft c >>= f) store (s, t) =
      { result := .error e, state := ((c store s).state, t), reads := (c store s).reads } :=
  bind_of_error (c := Call.onLeft c) (s := (s, t)) h

/-- After an answer of the second state, the second call goes on from what that state became. -/
theorem onRight_bind_of_ok {c : Call τ α} (h : (c store t).result = .ok a) :
    (Call.onRight c >>= f) store (s, t) =
      { f a store (s, (c store t).state) with
        reads := (c store t).reads ++ (f a store (s, (c store t).state)).reads } :=
  bind_of_ok (c := Call.onRight c) (s := (s, t)) h

theorem onRight_bind_of_error {c : Call τ α} (h : (c store t).result = .error e) :
    (Call.onRight c >>= f) store (s, t) =
      { result := .error e, state := (s, (c store t).state), reads := (c store t).reads } :=
  bind_of_error (c := Call.onRight c) (s := (s, t)) h

end Parts

/-- From every state with `P`, an answer `a` leaves a state with `Q a` and an error `e` leaves a
state with `E e`. -/
def Triple (store : PageStore) (P : σ → Prop) (c : Call σ α) (Q : α → σ → Prop)
    (E : StreamError → σ → Prop) : Prop :=
  ∀ s, P s → match (c store s).result with
    | .ok a => Q a (c store s).state
    | .error e => E e (c store s).state

namespace Triple

variable {P P' : σ → Prop} {Q Q' : α → σ → Prop} {E E' : StreamError → σ → Prop}

/-! ## Using a triple -/

theorem of_ok {c : Call σ α} (h : Triple store P c Q E) {s : σ} (hs : P s) {a : α}
    (ha : (c store s).result = .ok a) : Q a (c store s).state := by
  have := h s hs
  rwa [ha] at this

theorem of_error {c : Call σ α} (h : Triple store P c Q E) {s : σ} (hs : P s) {e : StreamError}
    (he : (c store s).result = .error e) : E e (c store s).state := by
  have := h s hs
  rwa [he] at this

/-- What holds after an answer and after an error holds in any case. -/
theorem of_both {R : σ → Prop} {c : Call σ α} (h : Triple store P c (fun _ => R) (fun _ => R))
    {s : σ} (hs : P s) : R (c store s).state := by
  cases hr : (c store s).result with
  | ok a => exact h.of_ok hs hr
  | error e => exact h.of_error hs hr

/-- A triple is what holds of each answer and of each error. -/
theorem intro {c : Call σ α}
    (hok : ∀ s a, P s → (c store s).result = .ok a → Q a (c store s).state)
    (herr : ∀ s e, P s → (c store s).result = .error e → E e (c store s).state) :
    Triple store P c Q E := by
  intro s hs
  cases h : (c store s).result with
  | ok a => exact hok s a hs h
  | error e => exact herr s e hs h

/-- Less may be assumed and more concluded. -/
theorem imp {c : Call σ α} (h : Triple store P c Q E) (hP : ∀ s, P' s → P s)
    (hQ : ∀ a s, Q a s → Q' a s) (hE : ∀ e s, E e s → E' e s) : Triple store P' c Q' E' :=
  intro (fun s a hs ha => hQ a _ (h.of_ok (hP s hs) ha))
    (fun s e hs he => hE e _ (h.of_error (hP s hs) he))

/-- A triple may be proved state by state. -/
theorem each {c : Call σ α} (h : ∀ s, P s → Triple store (· = s) c Q E) : Triple store P c Q E :=
  fun s hs => h s hs s rfl

/-- What is proved of all states with `P` is proved of each of them. -/
theorem atState {c : Call σ α} {s : σ} (h : Triple store P c Q E) (hs : P s) :
    Triple store (· = s) c Q E := fun _ ht => h _ (ht ▸ hs)

/-- What does not depend on the state may be assumed apart from it. -/
theorem given {A : Prop} {c : Call σ α} (h : A → Triple store P c Q E) :
    Triple store (fun s => A ∧ P s) c Q E := fun s hs => h hs.1 s hs.2

/-! ## The rules -/

/-- A call that leaves the state alone. -/
theorem still {c : Call σ α} (h : ∀ s, (c store s).state = s) :
    Triple store P c (fun _ => P) (fun _ => P) := by
  apply intro
  · intro s a hs _
    rw [h s]
    exact hs
  · intro s e hs _
    rw [h s]
    exact hs

theorem pure {a : α} (h : ∀ s, P s → Q a s) :
    Triple store P (Pure.pure a : Call σ α) Q E := fun s hs => h s hs

/-- From one state, the second call is judged where the first one answers. -/
theorem bindAt {c : Call σ β} {f : β → Call σ α} {s : σ}
    (hok : ∀ b, (c store s).result = .ok b → Triple store (· = (c store s).state) (f b) Q E)
    (herr : ∀ e, (c store s).result = .error e → E e (c store s).state) :
    Triple store (· = s) (c >>= f) Q E := by
  rintro s rfl
  cases h : (c store s).result with
  | ok b =>
    rw [bind_of_ok h]
    exact hok b h _ rfl
  | error e =>
    rw [bind_of_error h]
    exact herr e h

theorem bind {R : β → σ → Prop} {c : Call σ β} {f : β → Call σ α} (hc : Triple store P c R E)
    (hf : ∀ b, Triple store (R b) (f b) Q E) : Triple store P (c >>= f) Q E :=
  each fun _ hs => bindAt
    (fun b hb => (hf b).atState (hc.of_ok hs hb))
    (fun _ he => hc.of_error hs he)

/-- What every answer of the second call comes with, it comes with after the first call as well. -/
theorem bindAny {c : Call σ β} {f : β → Call σ α}
    (hf : ∀ b, Triple store (fun _ => True) (f b) Q (fun _ _ => True)) :
    Triple store P (c >>= f) Q (fun _ _ => True) :=
  bind (R := fun _ _ => True) (intro (fun _ _ _ _ => trivial) (fun _ _ _ _ => trivial)) hf

/-- A call that begins by looking at its state is judged for each state. -/
theorem getBind {f : σ → Call σ α} (h : ∀ s, P s → Triple store (· = s) (f s) Q E) :
    Triple store P (get >>= f) Q E := by
  intro s hs
  rw [bind_of_ok (c := get) (a := s) rfl]
  exact h s hs s rfl

/-- The same from one state. -/
theorem getBindAt {f : σ → Call σ α} {s : σ} (h : Triple store (· = s) (f s) Q E) :
    Triple store (· = s) (get >>= f) Q E :=
  getBind fun _ ht => ht ▸ h

theorem modify {Q : Unit → σ → Prop} {f : σ → σ} (h : ∀ s, P s → Q () (f s)) :
    Triple store P (Call.modify f) Q E := fun s hs => h s hs

theorem ofExcept {r : Except StreamError α} (hok : ∀ s a, P s → r = .ok a → Q a s)
    (herr : ∀ s e, P s → r = .error e → E e s) : Triple store P (Call.ofExcept r) Q E :=
  intro (fun s a hs ha => hok s a hs ha) (fun s e hs he => herr s e hs he)

theorem fail {e : StreamError} (h : ∀ s, P s → E e s) :
    Triple store P (Call.fail e : Call σ α) Q E := fun s hs => h s hs

/-- A call on a part: what it does to the part is put back into the state as it was. -/
theorem zoom {part : σ → τ} {putPart : τ → σ → σ} {c : Call τ α}
    (h : ∀ s, P s → Triple store (· = part s) c (fun a t => Q a (putPart t s))
      (fun e t => E e (putPart t s))) :
    Triple store P (Call.zoom part putPart c) Q E := fun s hs => h s hs (part s) rfl

theorem onLeft {P : σ → Prop} {Q : α → σ → Prop} {E : StreamError → σ → Prop} {F : τ → Prop}
    {c : Call σ α} (h : Triple store P c Q E) :
    Triple store (fun s => P s.1 ∧ F s.2) (Call.onLeft c : Call (σ × τ) α)
      (fun a s => Q a s.1 ∧ F s.2) (fun e s => E e s.1 ∧ F s.2) := by
  apply zoom
  rintro ⟨s, t⟩ ⟨hs, ht⟩
  exact h.imp (fun _ hx => hx ▸ hs) (fun _ _ hq => ⟨hq, ht⟩) (fun _ _ he => ⟨he, ht⟩)

theorem onRight {P : τ → Prop} {Q : α → τ → Prop} {E : StreamError → τ → Prop} {F : σ → Prop}
    {c : Call τ α} (h : Triple store P c Q E) :
    Triple store (fun s => F s.1 ∧ P s.2) (Call.onRight c : Call (σ × τ) α)
      (fun a s => F s.1 ∧ Q a s.2) (fun e s => F s.1 ∧ E e s.2) := by
  apply zoom
  rintro ⟨s, t⟩ ⟨hs, ht⟩
  exact h.imp (fun _ hx => hx ▸ ht) (fun _ _ hq => ⟨hs, hq⟩) (fun _ _ he => ⟨hs, he⟩)

theorem onError {cleanUp : σ → σ} {c : Call σ α}
    (h : Triple store P c Q (fun e s => E e (cleanUp s))) :
    Triple store P (Call.onError cleanUp c) Q E := by
  intro s hs
  unfold Call.onError
  cases hr : (c store s).result with
  | ok a => simpa only [hr] using h.of_ok hs hr
  | error e => simpa only [hr] using h.of_error hs hr

theorem ensuring {cleanUp : σ → σ} {c : Call σ α}
    (h : Triple store P c (fun a s => Q a (cleanUp s)) (fun e s => E e (cleanUp s))) :
    Triple store P (Call.ensuring cleanUp c) Q E := fun s hs => h s hs

/-! ## Reading a stream to its end -/

variable [Cursor σ]

/-- One round of reading a stream: look for a row, take it, do the step, and go on. -/
theorem foldWith_eq (step : β → Row → Call τ β) (b : β) :
    Cursor.foldWith step b = ((do
      if ← Call.onLeft Cursor.hasNext then
        let row ← Call.onLeft Cursor.next
        let b ← Call.onRight (step b row)
        Cursor.foldWith step b
      else return b) : Call (σ × τ) β) := by
  funext store s
  unfold Cursor.foldWith
  rw [Cursor.foldFrom]
  simp only [Bind.bind, Call.bind, Call.onLeft, Call.onRight, Call.zoom]
  cases hm : (Cursor.hasNext store s.1).result with
  | error e => rfl
  | ok more =>
    cases more with
    | false => simp [Pure.pure, Call.pure]
    | true =>
      cases hn : (Cursor.next store (Cursor.hasNext store s.1).state).result with
      | error e => simp [Call.bind, Call.zoom, hn]
      | ok row =>
        cases hd : (step b row store s.2).result <;>
          simp [Call.bind, Call.zoom, hn, hd, List.append_assoc]

/-- The loop rule. `I b` holds before each round, `T b` where a row is left, and `N b row` when it is
taken; the round ends with the step. -/
theorem foldWith {I T : β → σ × τ → Prop} {N : β → Row → σ × τ → Prop} {Q : β → σ × τ → Prop}
    {E : StreamError → σ × τ → Prop} {step : β → Row → Call τ β}
    (hmore : ∀ b, Triple store (I b) (Call.onLeft Cursor.hasNext)
      (fun more s => if more then T b s else Q b s) E)
    (hnext : ∀ b, Triple store (T b) (Call.onLeft Cursor.next) (N b) E)
    (hstep : ∀ b row, Triple store (N b row) (Call.onRight (step b row)) I E) (b : β) :
    Triple store (I b) (Cursor.foldWith step b) Q E := by
  -- the rounds are counted by the bound on the rows to come, which every taken row lowers
  suffices rounds : ∀ n b (s : σ × τ), Cursor.remaining store s.1 < n → I b s →
      Triple store (· = s) (Cursor.foldWith step b) Q E from
    each fun s hs => rounds _ b s (Nat.lt_succ_self _) hs
  intro n
  induction n with
  | zero =>
    intro b s hlt
    exact absurd hlt (Nat.not_lt_zero _)
  | succ n ih =>
    intro b s hlt hs
    rw [foldWith_eq]
    refine bindAt (fun more hm => ?_) (fun e he => (hmore b).of_error hs he)
    have hle := Cursor.remaining_hasNext store s.1
    have hmore := (hmore b).of_ok hs hm
    cases more with
    | false => exact pure fun _ ht => ht ▸ hmore
    | true =>
      refine bindAt (fun row hr => ?_) (fun e he => (hnext b).of_error hmore he)
      have hlt' := Cursor.remaining_next store _ row hr
      have hrow := (hnext b).of_ok hmore hr
      refine bindAt (fun b' hb => ?_) (fun e he => (hstep b row).of_error hrow he)
      refine ih b' _ ?_ ((hstep b row).of_ok hrow hb)
      exact Nat.lt_of_lt_of_le hlt' (Nat.le_trans hle (Nat.le_of_lt_succ hlt))

/-- The loop rule for a pure step. -/
theorem fold {I T : β → σ → Prop} {N : β → Row → σ → Prop} {Q : β → σ → Prop}
    {E : StreamError → σ → Prop} {step : β → Row → Except StreamError β}
    (hmore : ∀ b, Triple store (I b) Cursor.hasNext (fun more s => if more then T b s else Q b s) E)
    (hnext : ∀ b, Triple store (T b) Cursor.next (N b) E)
    (hok : ∀ b row s b', N b row s → step b row = .ok b' → I b' s)
    (herr : ∀ b row s e, N b row s → step b row = .error e → E e s) (b : β) :
    Triple store (I b) (Cursor.fold step b) Q E := by
  intro s hs
  -- the second state of the loop is idle, so every assertion on it is trivial
  have loop : Triple store (fun s : σ × Unit => I b s.1 ∧ True)
      (Cursor.foldWith (fun b row => Call.ofExcept (step b row)) b)
      (fun b s => Q b s.1 ∧ True) (fun e s => E e s.1 ∧ True) := by
    refine foldWith (I := fun b s => I b s.1 ∧ True) (T := fun b s => T b s.1 ∧ True)
      (N := fun b row s => N b row s.1 ∧ True) (fun b => ?_) (fun b => (hnext b).onLeft (F := fun _ => True))
      (fun b row => ?_) b
    · refine ((hmore b).onLeft (F := fun _ => True)).imp (fun _ => id) (fun more s hs => ?_) (fun _ _ => id)
      cases more <;> exact hs
    · refine Triple.zoom fun s hs => Triple.ofExcept ?_ ?_
      · rintro _ b' rfl hb
        exact ⟨hok b row s.1 b' hs.1 hb, trivial⟩
      · rintro _ e rfl he
        exact ⟨herr b row s.1 e hs.1 he, trivial⟩
  have h := loop (s, ()) ⟨hs, trivial⟩
  unfold Cursor.fold
  revert h
  cases hr : (Cursor.foldWith (fun b row => Call.ofExcept (step b row)) b store (s, ())).result with
  | ok b => exact fun h => h.1
  | error e => exact fun h => h.1

end Triple

/-! ## Calls whose result is known -/

/-- From every state with `I`, the result is `r`, and `I` holds again afterwards. -/
def Computes (store : PageStore) (I : σ → Prop) (c : Call σ α) (r : Except StreamError α) : Prop :=
  ∀ s, I s → (c store s).result = r ∧ I (c store s).state

namespace Computes

variable {I : σ → Prop}

theorem iff_triple {c : Call σ α} {r : Except StreamError α} :
    Computes store I c r ↔
      Triple store I c (fun a s => r = .ok a ∧ I s) (fun e s => r = .error e ∧ I s) := by
  constructor
  · intro h
    exact Triple.intro (fun s a hs ha => ⟨(h s hs).1 ▸ ha, (h s hs).2⟩)
      (fun s e hs he => ⟨(h s hs).1 ▸ he, (h s hs).2⟩)
  · intro h s hs
    cases hr : (c store s).result with
    | ok a => exact ⟨(h.of_ok hs hr).1.symm, (h.of_ok hs hr).2⟩
    | error e => exact ⟨(h.of_error hs hr).1.symm, (h.of_error hs hr).2⟩

theorem pure (a : α) : Computes store I (Pure.pure a : Call σ α) (.ok a) := fun _ hs => ⟨rfl, hs⟩

theorem ofExcept (r : Except StreamError α) : Computes store I (Call.ofExcept r) r :=
  fun _ hs => ⟨rfl, hs⟩

theorem bind {c : Call σ β} {f : β → Call σ α} {r : Except StreamError β}
    {g : β → Except StreamError α} (hc : Computes store I c r)
    (hf : ∀ b, Computes store I (f b) (g b)) : Computes store I (c >>= f) (r >>= g) := by
  intro s hs
  obtain ⟨hr, hI⟩ := hc s hs
  cases r with
  | ok b =>
    rw [bind_of_ok hr]
    exact hf b _ hI
  | error e =>
    rw [bind_of_error hr]
    exact ⟨rfl, hI⟩

/-- A call that begins by looking at its state computes what it computes for each state. -/
theorem getBind {f : σ → Call σ α} {r : Except StreamError α}
    (h : ∀ s, I s → Computes store I (f s) r) : Computes store I (get >>= f) r := by
  intro s hs
  rw [bind_of_ok (c := get) (a := s) rfl]
  exact h s hs s hs

theorem onLeft {F : τ → Prop} {c : Call σ α} {r : Except StreamError α}
    (h : Computes store I c r) :
    Computes store (fun s => I s.1 ∧ F s.2) (Call.onLeft c : Call (σ × τ) α) r :=
  fun s hs => ⟨(h s.1 hs.1).1, (h s.1 hs.1).2, hs.2⟩

theorem onRight {I : τ → Prop} {F : σ → Prop} {c : Call τ α} {r : Except StreamError α}
    (h : Computes store I c r) :
    Computes store (fun s => F s.1 ∧ I s.2) (Call.onRight c : Call (σ × τ) α) r :=
  fun s hs => ⟨(h s.2 hs.2).1, hs.1, (h s.2 hs.2).2⟩

end Computes

end RowStream.Call
