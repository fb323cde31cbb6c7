import RowStream.Config.Strategy

/-!
# `RowStream.Config.Basic` — settings of a query

## Contents
- `Config` — buffer size, join strategy and page size, with their defaults.
- `Config.validate` — refusing settings that no join could use.
-/

namespace RowStream

/-- The settings of a query. -/
structure Config where
  /-- The buffer of each side of a block join, in bytes. -/
  joinBufferBytes : Nat := 262144
  /-- The way to compute joins. -/
  strategy : Strategy := .blockNestedLoop
  /-- The rows on a page of a stored table. -/
  scanPageRows : Nat := 64
  deriving DecidableEq, Repr

namespace Config

/-- Refuses an empty or a huge join buffer, then an empty page. -/
def validate (c : Config) : Except DataError Unit :=
  if c.joinBufferBytes = 0 then .error (.config .emptyJoinBuffer)
  else if maxJoinBufferBytes < c.joinBufferBytes then
    .error (.config (.hugeJoinBuffer c.joinBufferBytes))
  else if c.scanPageRows = 0 then .error (.config .emptyScanPage)
  else .ok ()

/-- Settings pass exactly when the buffer is neither empty nor huge and a page holds a row. -/
theorem validate_eq_ok_iff (c : Config) :
    c.validate = .ok () ↔
      0 < c.joinBufferBytes ∧ c.joinBufferBytes ≤ maxJoinBufferBytes ∧ 0 < c.scanPageRows := by
  simp only [validate]
  split
  · simp; omega
  · split
    · simp; omega
    · split <;> simp <;> omega

end Config

end RowStream
