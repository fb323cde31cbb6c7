import Mathlib.Algebra.BigOperators.Group.List.Basic
import Mathlib.Algebra.GroupWithZero.Nat
import Mathlib.Data.List.Perm.Basic
import RowStream.Proofs.Memory.Reserved

/-!
# `RowStream.Proofs.Memory.Ledger` — what an account knows about the reservations that are live

An account keeps one number, a ledger next to it keeps the reservations themselves. Whatever is
requested and given back, in whatever order, the number is the sum over the ledger, so that a request
is granted exactly while the sum has room for it, and giving everything back leaves nothing taken.

This needs that the capacity lies below the top of the words. At the top the saturated sum never
exceeds the capacity: a full account still grants requests, and what they take is not counted.

## Contents
- `Ledger`, `Ledger.Event`, `Ledger.run` — an account with its live reservations, and what its
  holders do.
- `step_request` — a request that is refused does nothing.
- `Ledger.Balanced`, `Ledger.Next`, `next_step` — the invariant, and what one event does.
- `balanced_run` — every run keeps the invariant, and the mark is the largest sum on the way.
- `Ledger.Faithful`, `faithful_run` — all that the account tells its holders is true of the ledger.
- `faithful_iff`, `unfaithful_at_top` — of all accounts, only the one of largest capacity fails them.
-/

namespace RowStream

/-- An account with the reservations that were taken from it and not given back yet, in the order in
which they were taken. -/
structure Ledger where
  /-- The account. -/
  budget : Budget
  /-- The live reservations. -/
  live : List Reservation := []
  deriving DecidableEq, Repr

namespace Ledger

/-- What the holders of an account do. Every copy of an account is the account. -/
inductive Event where
  /-- Somebody asks for bytes. -/
  | request (bytes : Nat) (tag : String)
  /-- The live reservation of that number is given back. -/
  | giveBack (place : Nat)
  deriving DecidableEq, Repr

/-- A new account, from which nothing is taken. -/
def opened (account capacity : Nat) : Ledger := { budget := { account, capacity } }

/-- The sum of the bytes of the live reservations. -/
def taken (l : Ledger) : Nat := (l.live.map Reservation.bytes).sum

/-- What an event does. A request is made of the account as it stands, and what it is granted, if anything,
is live from then on. Nothing is given back twice. -/
def step (l : Ledger) : Event → Ledger
  | .request bytes tag =>
    let (granted, budget) := (Budget.acquire? bytes tag).run l.budget
    { budget, live := l.live ++ granted.toList }
  | .giveBack place =>
    match l.live[place]? with
    | some r => { budget := l.budget.release r, live := l.live.eraseIdx place }
    | none => l

/-- What events do one after the other. -/
def run (l : Ledger) (events : List Event) : Ledger := events.foldl step l

/-- The largest sum of live reservations before, between and after the events. -/
def highest (l : Ledger) : List Event → Nat
  | [] => l.taken
  | event :: events => max l.taken ((l.step event).highest events)

/-- The account counts its live reservations, which are its own, and has marked their sum. -/
structure Balanced (l : Ledger) : Prop where
  /-- The counter cannot fill up. -/
  sound : l.budget.Sound
  /-- What is taken is the sum. -/
  used_eq : l.budget.used = l.taken
  /-- Giving a live reservation back credits this account. -/
  account_eq : ∀ r ∈ l.live, r.account = l.budget.account
  /-- The sum has been marked. -/
  taken_le : l.taken ≤ l.budget.peak.level

variable {l : Ledger}

/-! ## One event -/

/-- A live reservation is a part of the sum. -/
theorem taken_eq_add {r : Reservation} {place : Nat} (h : l.live[place]? = some r) :
    l.taken = r.bytes + ((l.live.eraseIdx place).map Reservation.bytes).sum := by
  obtain ⟨hplace, rfl⟩ := List.getElem?_eq_some_iff.1 h
  have hperm : (l.live[place] :: l.live.eraseIdx place).Perm l.live :=
    List.getElem_cons_eraseIdx_perm hplace
  have hsum := (hperm.map Reservation.bytes).sum_eq
  rw [List.map_cons, List.sum_cons] at hsum
  exact hsum.symm

/-- A request that is granted is live, and one that is refused does nothing. -/
theorem step_request (l : Ledger) (bytes : Nat) (tag : String) :
    l.step (.request bytes tag) =
      match l.budget.reserve bytes tag with
      | .ok (r, budget) => { budget, live := l.live ++ [r] }
      | .error _ => l := by
  simp only [step, Budget.acquire?_run, Budget.reserve_eq_ite]
  by_cases hrefused : 0 < bytes ∧ l.budget.capacity < Word.saturatingAdd l.budget.used bytes
  · rw [if_pos hrefused, if_pos hrefused]
    simp
  · rw [if_neg hrefused, if_neg hrefused]
    simp

/-- Giving back a live reservation takes its bytes from the counter and touches nothing else. -/
theorem release_live (hl : l.Balanced) {r : Reservation} (hr : r ∈ l.live)
    (hle : r.bytes ≤ l.budget.used) :
    l.budget.release r = { l.budget with used := l.budget.used - r.bytes } := by
  have haccount := hl.account_eq r hr
  unfold Budget.release
  by_cases h0 : 0 < r.bytes
  · rw [if_pos ⟨haccount, h0⟩]
    have hlimit : l.budget.used < Word.limit := by
      have := hl.sound.used_le
      have := hl.sound.capacity_lt
      unfold Word.top at *
      omega
    rw [Word.wrappingSub_eq_sub hle hlimit]
  · have hzero : r.bytes = 0 := by omega
    rw [if_neg (fun h => h0 h.2), hzero, Nat.sub_zero]

/-- A balanced ledger that may come right after another one: the capacity is the same, and the mark
has grown to the new sum if that is larger. -/
structure Next (l l' : Ledger) : Prop where
  /-- It is balanced. -/
  balanced : l'.Balanced
  /-- Nothing changes the capacity. -/
  capacity_eq : l'.budget.capacity = l.budget.capacity
  /-- The mark knows the new sum. -/
  peak_eq : l'.budget.peak.level = max l.budget.peak.level l'.taken

/-- Nothing happens to a balanced ledger. -/
theorem Balanced.next_self (hl : l.Balanced) : l.Next l :=
  ⟨hl, rfl, (Nat.max_eq_left hl.taken_le).symm⟩

/-- A grant adds the bytes to the counter and to the sum. -/
theorem next_of_reserve (hl : l.Balanced) {b' : Budget} {bytes : Nat} {tag : String}
    {r : Reservation} (h : l.budget.reserve bytes tag = .ok (r, b')) :
    l.Next ⟨b', l.live ++ [r]⟩ := by
  obtain ⟨hsound, hcapacity, hused, -⟩ := Budget.of_reserve hl.sound h
  obtain ⟨-, rfl, rfl⟩ := Budget.reserve_eq_ok_iff.1 h
  have htaken : taken ⟨l.budget.charged bytes, l.live ++ [l.budget.granted bytes tag]⟩ =
      l.taken + bytes := by
    simp [taken, Budget.granted]
  -- A request for nothing leaves no mark, and needs none: the sum stays what it is.
  have hlevel : (l.budget.charged bytes).peak.level =
      max l.budget.peak.level (l.taken + bytes) := by
    rw [← hl.used_eq, ← hused]
    unfold Budget.charged
    by_cases h0 : bytes = 0
    · rw [if_pos h0, hl.used_eq]
      exact (Nat.max_eq_left hl.taken_le).symm
    · rw [if_neg h0]
      rfl
  refine ⟨⟨hsound, ?_, ?_, ?_⟩, hcapacity, ?_⟩
  · show (l.budget.charged bytes).used = _
    rw [htaken, hused, hl.used_eq]
  · intro r hr
    show r.account = (l.budget.charged bytes).account
    rw [Budget.account_charged]
    rcases List.mem_append.1 hr with hr | hr
    · exact hl.account_eq r hr
    · rw [List.mem_singleton.1 hr]
      rfl
  · show _ ≤ (l.budget.charged bytes).peak.level
    rw [htaken, hlevel]
    exact Nat.le_max_right _ _
  · show (l.budget.charged bytes).peak.level = _
    rw [htaken, hlevel]

/-- A live reservation that is given back takes its bytes from the counter and from the sum. -/
theorem next_of_giveBack (hl : l.Balanced) {place : Nat} {r : Reservation}
    (h : l.live[place]? = some r) : l.Next ⟨l.budget.release r, l.live.eraseIdx place⟩ := by
  have hsum : l.taken = r.bytes + ((l.live.eraseIdx place).map Reservation.bytes).sum :=
    taken_eq_add h
  have hle : r.bytes ≤ l.budget.used := by
    rw [hl.used_eq]
    omega
  have htaken (b : Budget) : taken ⟨b, l.live.eraseIdx place⟩ = l.taken - r.bytes := by
    rw [hsum, Nat.add_sub_cancel_left]
    rfl
  have hmarked := hl.taken_le
  rw [release_live hl (List.mem_of_getElem? h) hle]
  refine ⟨⟨⟨?_, hl.sound.capacity_lt⟩, ?_, ?_, ?_⟩, rfl, ?_⟩
  · exact Nat.le_trans (Nat.sub_le _ _) hl.sound.used_le
  · show l.budget.used - r.bytes = _
    rw [htaken, hl.used_eq]
  · intro r' hr'
    exact hl.account_eq r' (List.mem_of_mem_eraseIdx hr')
  · show _ ≤ l.budget.peak.level
    rw [htaken]
    omega
  · show l.budget.peak.level = _
    rw [htaken]
    omega

/-- What one event does to a balanced ledger. -/
theorem next_step (hl : l.Balanced) (event : Event) : l.Next (l.step event) := by
  cases event with
  | request bytes tag =>
    rw [step_request]
    cases hgranted : l.budget.reserve bytes tag with
    | error e => exact hl.next_self
    | ok granted => exact next_of_reserve hl hgranted
  | giveBack place =>
    cases hplace : l.live[place]? with
    | none =>
      simp only [step, hplace]
      exact hl.next_self
    | some r =>
      simp only [step, hplace]
      exact next_of_giveBack hl hplace

/-! ## Runs -/

/-- A new account of a capacity below the top is balanced. -/
theorem balanced_opened {capacity : Nat} (h : capacity < Word.top) (account : Nat) :
    (opened account capacity).Balanced :=
  ⟨⟨Nat.zero_le _, h⟩, rfl, by simp [opened], Nat.le_refl _⟩

/-- A ledger stays balanced, whatever its holders do, and its mark is the largest sum on the way. -/
theorem balanced_run (hl : l.Balanced) (events : List Event) :
    (l.run events).Balanced ∧ (l.run events).budget.capacity = l.budget.capacity ∧
      (l.run events).budget.peak.level = max l.budget.peak.level (l.highest events) := by
  induction events generalizing l with
  | nil => exact ⟨hl, rfl, (Nat.max_eq_left hl.taken_le).symm⟩
  | cons event events ih =>
    obtain ⟨hstep, hcapacity, hpeak⟩ := next_step hl event
    obtain ⟨hrun, hcapacity', hpeak'⟩ := ih hstep
    refine ⟨hrun, hcapacity'.trans hcapacity, ?_⟩
    have htaken := hl.taken_le
    have hfirst : (l.step event).taken ≤ (l.step event).highest events := by
      cases events with
      | nil => exact Nat.le_refl _
      | cons => exact Nat.le_max_left _ _
    show ((l.step event).run events).budget.peak.level =
      max l.budget.peak.level (max l.taken ((l.step event).highest events))
    rw [hpeak', hpeak]
    omega

/-- Giving back all live reservations, in any order, leaves nothing taken. -/
theorem used_of_giveBack_all (hl : l.Balanced) {order : List Reservation}
    (horder : order.Perm l.live) : (order.foldl Budget.release l.budget).used = 0 := by
  induction order generalizing l with
  | nil =>
    have hempty : l.live = [] := horder.symm.eq_nil
    show l.budget.used = 0
    rw [hl.used_eq, taken, hempty]
    rfl
  | cons r order ih =>
    obtain ⟨place, hplace⟩ := List.mem_iff_getElem?.1 (horder.subset List.mem_cons_self)
    have hnext := next_of_giveBack hl hplace
    have hrest : order.Perm (l.live.eraseIdx place) := by
      obtain ⟨hlt, rfl⟩ := List.getElem?_eq_some_iff.1 hplace
      have hperm : (l.live[place] :: l.live.eraseIdx place).Perm l.live :=
        List.getElem_cons_eraseIdx_perm hlt
      exact (horder.trans hperm.symm).cons_inv
    exact ih hnext.balanced hrest

/-- All that an account of that capacity tells its holders is true of the ledger, where `highest` is
the largest sum that was ever taken. -/
structure Faithful (l : Ledger) (capacity highest : Nat) : Prop where
  /-- The counter is the sum of the live reservations. -/
  used_eq : l.budget.used = l.taken
  /-- No more than the capacity is taken. -/
  taken_le : l.taken ≤ capacity
  /-- The mark is the largest sum. -/
  peak_eq : l.budget.peak.level = highest
  /-- A request for something is granted exactly if the sum has room for it. -/
  granted_iff : ∀ bytes tag, 0 < bytes →
    ((∃ granted, l.budget.reserve bytes tag = .ok granted) ↔ l.taken + bytes ≤ capacity)
  /-- A refusal tells the sum and the capacity, and changes nothing. -/
  refused : ∀ bytes tag e, l.budget.reserve bytes tag = .error e →
    e = .exceeded tag bytes capacity l.taken ∧ l.step (.request bytes tag) = l
  /-- Giving everything back, in any order, leaves nothing taken. -/
  used_of_all : ∀ order : List Reservation, order.Perm l.live →
    (order.foldl Budget.release l.budget).used = 0

/-- A balanced ledger is faithful. -/
theorem Balanced.faithful (hl : l.Balanced) :
    l.Faithful l.budget.capacity l.budget.peak.level where
  used_eq := hl.used_eq
  taken_le := by
    rw [← hl.used_eq]
    exact hl.sound.used_le
  peak_eq := rfl
  granted_iff bytes tag _ := by
    rw [← hl.used_eq]
    constructor
    · rintro ⟨⟨r, b'⟩, hgranted⟩
      exact (Budget.fits_of_reserve hl.sound hgranted).2
    · intro hfits
      exact Budget.reserve_of_fits bytes tag hfits
  refused bytes tag e h := by
    obtain ⟨-, he⟩ := Budget.reserve_eq_error_iff.1 h
    refine ⟨?_, ?_⟩
    · rw [he, hl.used_eq]
    · rw [step_request, h]
  used_of_all _ horder := used_of_giveBack_all hl horder

/-- An account whose capacity lies below the top of the words is faithful after every run. -/
theorem faithful_run {capacity : Nat} (h : capacity < Word.top) (account : Nat)
    (events : List Event) :
    ((opened account capacity).run events).Faithful capacity
      ((opened account capacity).highest events) := by
  obtain ⟨hrun, hcapacity, hpeak⟩ := balanced_run (balanced_opened h account) events
  have hfaithful := hrun.faithful
  have hmark : (opened account capacity).budget.peak.level = 0 := rfl
  rw [hmark, Nat.zero_max] at hpeak
  have hcapacity' : ((opened account capacity).run events).budget.capacity = capacity := hcapacity
  rw [hcapacity', hpeak] at hfaithful
  exact hfaithful

/-- The account of largest capacity grants one byte more when it is full. -/
theorem taken_at_top (account : Nat) :
    ((opened account Word.top).run [.request Word.top "all", .request 1 "more"]).taken =
      Word.top + 1 := by
  simp [run, step_request, opened, taken, Budget.reserve_eq_ite, Budget.granted, Budget.charged,
    Word.saturatingAdd, Word.top, Word.limit]

/-- An account is faithful whatever its holders do exactly if its capacity is not the largest word. -/
theorem faithful_iff {capacity : Nat} (h : capacity ≤ Word.top) (account : Nat) :
    (∀ events, ((opened account capacity).run events).Faithful capacity
      ((opened account capacity).highest events)) ↔ capacity ≠ Word.top := by
  constructor
  · rintro hfaithful rfl
    have hle := (hfaithful [.request Word.top "all", .request 1 "more"]).taken_le
    rw [taken_at_top] at hle
    exact Nat.not_succ_le_self _ hle
  · intro hne events
    exact faithful_run (Nat.lt_of_le_of_ne h hne) account events

/-- In a run with a grant, a refusal and a grant of the bytes that were given back, the account is
faithful at the end. -/
theorem faithful_of_hundred :
    100 ≤ Word.top ∧ 100 ≠ Word.top ∧
      ((opened 0 100).run
        [.request 60 "build", .request 50 "probe", .giveBack 0, .request 50 "probe"]).Faithful
          100 60 := by
  have hword : 100 ≤ Word.top := by decide
  have hne : 100 ≠ Word.top := by decide
  have hhighest : (opened 0 100).highest
      [.request 60 "build", .request 50 "probe", .giveBack 0, .request 50 "probe"] = 60 := by
    decide
  have hfaithful := (faithful_iff hword 0).2 hne
    [.request 60 "build", .request 50 "probe", .giveBack 0, .request 50 "probe"]
  rw [hhighest] at hfaithful
  exact ⟨hword, hne, hfaithful⟩

/-- The account of largest capacity does not count what it grants when it is full, and is full again
once everything is given back. -/
theorem unfaithful_at_top :
    let l := (opened 0 Word.top).run [.request Word.top "all", .request 1 "more"]
    l.live.length = 2 ∧ l.budget.used = Word.top ∧
      (l.live.foldl Budget.release l.budget).used = Word.top ∧
      ¬ l.Faithful Word.top ((opened 0 Word.top).highest
        [.request Word.top "all", .request 1 "more"]) := by
  refine ⟨by decide, by decide, by decide, ?_⟩
  intro hfaithful
  have hle := hfaithful.taken_le
  rw [taken_at_top] at hle
  exact Nat.not_succ_le_self _ hle

end Ledger

end RowStream
