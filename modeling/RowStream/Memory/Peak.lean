/-!
# `RowStream.Memory.Peak` — high-water marks

## Contents
- `Peak`, `Peak.record` — the highest level seen so far.
- `level_record` — a mark is the larger of what it was and what is recorded.
-/

namespace RowStream

/-- The highest level seen so far; nothing seen counts as level zero. -/
structure Peak where
  /-- The highest level. -/
  level : Nat := 0
  deriving DecidableEq, Repr

namespace Peak

/-- Takes note of a level. -/
def record (p : Peak) (level : Nat) : Peak := ⟨max p.level level⟩

@[simp] theorem level_record (p : Peak) (level : Nat) :
    (p.record level).level = max p.level level := rfl

end Peak

end RowStream
