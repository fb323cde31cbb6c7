/-!
# `RowStream.InPlace` — work that is done in place

Work on a value may break off with an error. What it has written by then stays written, so that nothing
is left as it was by itself: where a failure changes nothing, this is because the work looks at everything
that can be wrong before it writes.

## Contents
- `InPlace` — the type.
- `InPlace.check`, `run_check` — a check on the way.
- `InPlace.outcome` — what is answered, and what is left behind.
-/

namespace RowStream

/-- Work in place on an `σ` that answers an `α` or breaks off with an `ε`. -/
abbrev InPlace (ε σ α : Type) : Type := EStateM ε σ α

namespace InPlace

variable {ε σ α : Type}

/-- Goes on if the check answers, and breaks off if it does not. -/
def check (result : Except ε α) : InPlace ε σ α := MonadExcept.ofExcept result

/-- A check writes nothing. -/
@[simp] theorem run_check (result : Except ε α) (s : σ) :
    (check result : InPlace ε σ α).run s =
      match result with
      | .ok a => .ok a s
      | .error e => .error e s := by
  cases result <;> rfl

/-- What the work answers, and what it leaves behind. -/
def outcome (work : InPlace ε σ α) (s : σ) : Except ε α × σ :=
  match work.run s with
  | .ok a s => (.ok a, s)
  | .error e s => (.error e, s)

end InPlace

end RowStream
