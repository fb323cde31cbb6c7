import RowStream.Proofs.Stream.Triple

/-!
# `RowStream.Proofs.Stream.Lockstep` — calls that look alike from two states

Two states may differ in something that no answer depends on. Then calls on the one and on the other go
hand in hand: they answer the same, read the same pages, and leave two states behind that differ in
nothing else. The rules follow the ways in which calls are put together.

## Contents
- `Call.Lockstep` — two calls from related states.
- `Lockstep.bind`, `Lockstep.getBind`, `Lockstep.zoom`, `Lockstep.onError`, … — one rule for each way of
  putting calls together.
-/

namespace RowStream.Call

variable {σ τ α β : Type} {store : PageStore} {R : σ → σ → Prop}

/-- From states that are related, the calls give the same answer or the same error, read the same
pages, and leave related states behind. -/
def Lockstep (store : PageStore) (R : σ → σ → Prop) (c c' : Call σ α) : Prop :=
  ∀ s s', R s s' → (c store s).result = (c' store s').result ∧
    R (c store s).state (c' store s').state ∧ (c store s).reads = (c' store s').reads

namespace Lockstep

theorem pure (a : α) : Lockstep store R (Pure.pure a : Call σ α) (Pure.pure a) :=
  fun _ _ hs => ⟨rfl, hs, rfl⟩

theorem ofExcept (r : Except StreamError α) : Lockstep store R (Call.ofExcept r) (Call.ofExcept r) :=
  fun _ _ hs => ⟨rfl, hs, rfl⟩

theorem fail (e : StreamError) :
    Lockstep store R (Call.fail e : Call σ α) (Call.fail e) :=
  ofExcept (.error e)

theorem modify {f f' : σ → σ} (h : ∀ s s', R s s' → R (f s) (f' s')) :
    Lockstep store R (Call.modify f) (Call.modify f') := fun s s' hs => ⟨rfl, h s s' hs, rfl⟩

/-- The second calls go on from what the first ones answered alike. -/
theorem bind {c c' : Call σ β} {f f' : β → Call σ α} (hc : Lockstep store R c c')
    (hf : ∀ b, Lockstep store R (f b) (f' b)) : Lockstep store R (c >>= f) (c' >>= f') := by
  intro s s' hs
  obtain ⟨hresult, hstate, hreads⟩ := hc s s' hs
  cases hb : (c store s).result with
  | error e =>
    rw [hb] at hresult
    rw [bind_of_error hb, bind_of_error hresult.symm]
    exact ⟨rfl, hstate, hreads⟩
  | ok b =>
    rw [hb] at hresult
    obtain ⟨hresult', hstate', hreads'⟩ := hf b _ _ hstate
    rw [bind_of_ok hb, bind_of_ok hresult.symm]
    exact ⟨hresult', hstate', by rw [hreads, hreads']⟩

/-- Calls that look at their states first. -/
theorem getBind {f f' : σ → Call σ α} (h : ∀ s s', R s s' → Lockstep store R (f s) (f' s')) :
    Lockstep store R (Call.get >>= f) (Call.get >>= f') := by
  intro s s' hs
  rw [bind_of_ok (c := Call.get) (a := s) rfl, bind_of_ok (c := Call.get) (a := s') rfl]
  exact h s s' hs s s' hs

/-- A call on a part that is one and the same. -/
theorem zoom {part : σ → τ} {putPart : τ → σ → σ} (c : Call τ α)
    (hpart : ∀ s s', R s s' → part s = part s')
    (hput : ∀ t s s', R s s' → R (putPart t s) (putPart t s')) :
    Lockstep store R (Call.zoom part putPart c) (Call.zoom part putPart c) := by
  intro s s' hs
  unfold Call.zoom
  rw [hpart s s' hs]
  exact ⟨rfl, hput _ s s' hs, rfl⟩

theorem onError {cleanUp : σ → σ} {c c' : Call σ α} (hc : Lockstep store R c c')
    (hcleanUp : ∀ s s', R s s' → R (cleanUp s) (cleanUp s')) :
    Lockstep store R (Call.onError cleanUp c) (Call.onError cleanUp c') := by
  intro s s' hs
  obtain ⟨hresult, hstate, hreads⟩ := hc s s' hs
  unfold Call.onError
  cases hr : (c store s).result with
  | ok a =>
    rw [hr] at hresult
    simp only [hr, ← hresult]
    exact ⟨trivial, hstate, hreads⟩
  | error e =>
    rw [hr] at hresult
    simp only [hr, ← hresult]
    exact ⟨trivial, hcleanUp _ _ hstate, hreads⟩

theorem ensuring {cleanUp : σ → σ} {c c' : Call σ α} (hc : Lockstep store R c c')
    (hcleanUp : ∀ s s', R s s' → R (cleanUp s) (cleanUp s')) :
    Lockstep store R (Call.ensuring cleanUp c) (Call.ensuring cleanUp c') := by
  intro s s' hs
  obtain ⟨hresult, hstate, hreads⟩ := hc s s' hs
  exact ⟨hresult, hcleanUp _ _ hstate, hreads⟩

end Lockstep

end RowStream.Call
