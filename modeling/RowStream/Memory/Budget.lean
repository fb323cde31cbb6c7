import RowStream.InPlace
import RowStream.Memory.Error
import RowStream.Memory.Peak
import RowStream.Text.Quoted
import RowStream.Word

/-!
# `RowStream.Memory.Budget` — a cap on bytes, and what is taken from it

A budget is an account of bytes. A reservation takes bytes from one account and carries the
account's number, so that giving it back credits the account it came from and no other.

## Contents
- `Budget`, `Reservation` — the types.
- `Budget.acquire?`, `Budget.acquire` — taking bytes in place, without and with the reason of a refusal.
- `Budget.reserve`, `Budget.release` — what a granted request takes, and giving a reservation back.
- `acquire?_run`, `acquire_run` — when a request is refused, and that this leaves the account as it was.
- `reserve_eq_ok_iff`, `reserve_eq_error_iff` — what is granted, and why a request is refused.
- `used_charged`, `used_release_charged` — a granted request adds its bytes, and giving them back undoes
  that.
-/

namespace RowStream

/-- An account of bytes. -/
structure Budget where
  /-- The number of the account. -/
  account : Nat
  /-- The bytes that may be taken at once. -/
  capacity : Nat
  /-- The bytes that are taken now. -/
  used : Nat := 0
  /-- The most bytes that were ever taken at once. -/
  peak : Peak := {}
  deriving DecidableEq, Repr

/-- Bytes taken from an account. -/
structure Reservation where
  /-- The number of the account. -/
  account : Nat
  /-- The bytes. -/
  bytes : Nat
  /-- What the bytes are for. -/
  tag : String
  deriving DecidableEq, Repr

/-- The reservation as logs show it. -/
def Reservation.debugText (r : Reservation) : String :=
  "Reservation \x7b tag: " ++ Text.quoted r.tag ++ s!", bytes: {r.bytes} \x7d"

namespace Budget

/-- The account as logs show it. -/
def debugText (b : Budget) : String :=
  "SharedBudget \x7b capacity: " ++ s!"{b.capacity}, used: {b.used} \x7d"

/-! ## Taking bytes -/

/-- Counts bytes as taken, and notes the new sum if it is the largest so far. Bytes that do not fit are not
counted. -/
def charge (bytes : Nat) : StateM Budget Bool := do
  let b ← get
  let used := Word.saturatingAdd b.used bytes
  if b.capacity < used then return false
  modify fun b => { b with used }
  modify fun b => { b with peak := b.peak.record used }
  return true

/-- Takes bytes from the account if they fit. A request for nothing is always granted, and the account is
not even asked. -/
def acquire? (bytes : Nat) (tag : String) : StateM Budget (Option Reservation) := do
  let fits ← if 0 < bytes then charge bytes else pure true
  if fits then return some { account := (← get).account, bytes, tag } else return none

/-- Takes bytes from the account, or says why they do not fit. -/
def acquire (bytes : Nat) (tag : String) : InPlace MemoryError Budget Reservation := do
  match ← modifyGet (acquire? bytes tag).run with
  | some reservation => return reservation
  | none =>
    let b ← get
    throw (.exceeded tag bytes b.capacity b.used)

/-- What a request that is granted takes, and the account after that. -/
def reserve (b : Budget) (bytes : Nat) (tag : String) :
    Except MemoryError (Reservation × Budget) :=
  match (acquire bytes tag).run b with
  | .ok reservation b => .ok (reservation, b)
  | .error e _ => .error e

/-- Gives a reservation back, if it was taken from this account. -/
def release (b : Budget) (r : Reservation) : Budget :=
  if r.account = b.account ∧ 0 < r.bytes then
    { b with used := Word.wrappingSub b.used r.bytes }
  else b

/-! ## What a request does -/

/-- What a request for these bytes is given. -/
def granted (b : Budget) (bytes : Nat) (tag : String) : Reservation :=
  { account := b.account, bytes, tag }

/-- The account with these bytes taken. A request for nothing leaves no trace in it. -/
def charged (b : Budget) (bytes : Nat) : Budget :=
  if bytes = 0 then b
  else
    let used := Word.saturatingAdd b.used bytes
    { b with used, peak := b.peak.record used }

@[simp] theorem account_charged (b : Budget) (bytes : Nat) :
    (b.charged bytes).account = b.account := by
  unfold charged
  split <;> rfl

@[simp] theorem capacity_charged (b : Budget) (bytes : Nat) :
    (b.charged bytes).capacity = b.capacity := by
  unfold charged
  split <;> rfl

/-- The sum is looked at before it is written. -/
theorem charge_run {bytes : Nat} (h : 0 < bytes) (b : Budget) :
    (charge bytes).run b =
      if b.capacity < Word.saturatingAdd b.used bytes then (false, b) else (true, b.charged bytes) := by
  unfold charge charged
  by_cases hfull : b.capacity < Word.saturatingAdd b.used bytes
  · simp only [StateT.run_bind, StateT.run_get, pure_bind, hfull, if_true]
    rfl
  · simp only [StateT.run_bind, StateT.run_get, pure_bind, hfull, Nat.ne_of_gt h, if_false]
    rfl

/-- A request is granted unless it asks for something and the saturated sum is too large. Then it leaves
the account as it was. -/
theorem acquire?_run (bytes : Nat) (tag : String) (b : Budget) :
    (acquire? bytes tag).run b =
      if 0 < bytes ∧ b.capacity < Word.saturatingAdd b.used bytes then (none, b)
      else (some (b.granted bytes tag), b.charged bytes) := by
  unfold acquire?
  rcases Nat.eq_zero_or_pos bytes with rfl | hpos
  · rfl
  · rw [if_pos hpos, StateT.run_bind, charge_run hpos]
    by_cases hfull : b.capacity < Word.saturatingAdd b.used bytes
    · rw [if_pos hfull, if_pos ⟨hpos, hfull⟩]
      rfl
    · rw [if_neg hfull, if_neg fun hrefused => hfull hrefused.2]
      unfold granted charged
      rw [if_neg (Nat.ne_of_gt hpos)]
      rfl

/-- A request that is refused is told how much is taken, and leaves the account as it was. -/
theorem acquire_run (bytes : Nat) (tag : String) (b : Budget) :
    (acquire bytes tag).run b =
      if 0 < bytes ∧ b.capacity < Word.saturatingAdd b.used bytes then
        .error (.exceeded tag bytes b.capacity b.used) b
      else .ok (b.granted bytes tag) (b.charged bytes) := by
  unfold acquire
  rw [EStateM.run_bind, EStateM.run_modifyGet, acquire?_run]
  by_cases hrefused : 0 < bytes ∧ b.capacity < Word.saturatingAdd b.used bytes
  · rw [if_pos hrefused, if_pos hrefused]
    rfl
  · rw [if_neg hrefused, if_neg hrefused]
    rfl

theorem reserve_eq_ite (b : Budget) (bytes : Nat) (tag : String) :
    b.reserve bytes tag =
      if 0 < bytes ∧ b.capacity < Word.saturatingAdd b.used bytes then
        .error (.exceeded tag bytes b.capacity b.used)
      else .ok (b.granted bytes tag, b.charged bytes) := by
  unfold reserve
  rw [acquire_run]
  by_cases hrefused : 0 < bytes ∧ b.capacity < Word.saturatingAdd b.used bytes
  · rw [if_pos hrefused, if_pos hrefused]
  · rw [if_neg hrefused, if_neg hrefused]

/-- A request is granted exactly if it asks for nothing or the saturated sum is not too large. -/
theorem reserve_eq_ok_iff {b b' : Budget} {bytes : Nat} {tag : String} {r : Reservation} :
    b.reserve bytes tag = .ok (r, b') ↔
      (0 < bytes → Word.saturatingAdd b.used bytes ≤ b.capacity) ∧
        r = b.granted bytes tag ∧ b' = b.charged bytes := by
  rw [reserve_eq_ite]
  by_cases hrefused : 0 < bytes ∧ b.capacity < Word.saturatingAdd b.used bytes
  · rw [if_pos hrefused]
    constructor
    · intro h
      cases h
    · rintro ⟨hfits, -⟩
      exact absurd (hfits hrefused.1) (Nat.not_le.2 hrefused.2)
  · rw [if_neg hrefused, Except.ok.injEq, Prod.mk.injEq]
    constructor
    · rintro ⟨rfl, rfl⟩
      exact ⟨fun hpos => Nat.not_lt.1 fun hfull => hrefused ⟨hpos, hfull⟩, rfl, rfl⟩
    · rintro ⟨-, rfl, rfl⟩
      exact ⟨rfl, rfl⟩

/-- It is refused exactly if it asks for something and the saturated sum is too large. -/
theorem reserve_eq_error_iff {b : Budget} {bytes : Nat} {tag : String} {e : MemoryError} :
    b.reserve bytes tag = .error e ↔
      (0 < bytes ∧ b.capacity < Word.saturatingAdd b.used bytes) ∧
        e = .exceeded tag bytes b.capacity b.used := by
  rw [reserve_eq_ite]
  by_cases hrefused : 0 < bytes ∧ b.capacity < Word.saturatingAdd b.used bytes
  · simp [hrefused, eq_comm]
  · simp [hrefused]

/-- A granted request adds its bytes to what is taken. -/
theorem used_charged {b : Budget} {bytes : Nat} (h : b.used + bytes < Word.limit) :
    (b.charged bytes).used = b.used + bytes := by
  unfold charged
  by_cases hzero : bytes = 0
  · rw [if_pos hzero, hzero, Nat.add_zero]
  · rw [if_neg hzero]
    exact Word.saturatingAdd_eq_add h

/-- Giving a granted reservation back restores what was taken before. -/
theorem used_release_charged {b : Budget} {bytes : Nat} (h : b.used + bytes < Word.limit)
    (tag : String) : ((b.charged bytes).release (b.granted bytes tag)).used = b.used := by
  have hused := used_charged h
  have haccount : (b.granted bytes tag).account = (b.charged bytes).account :=
    (account_charged b bytes).symm
  unfold release
  by_cases hpos : 0 < bytes
  · rw [if_pos ⟨haccount, hpos⟩]
    show Word.wrappingSub (b.charged bytes).used bytes = b.used
    rw [hused, Word.wrappingSub_eq_sub (Nat.le_add_left bytes b.used) h, Nat.add_sub_cancel]
  · rw [if_neg fun hgiven => hpos hgiven.2, hused, Nat.eq_zero_of_not_pos hpos, Nat.add_zero]

end Budget

end RowStream
