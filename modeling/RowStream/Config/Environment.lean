import RowStream.Config.Basic
import RowStream.Word

/-!
# `RowStream.Config.Environment` — settings from environment variables

Each setting has a variable of its own. A variable that is not set, or whose text cannot be read,
leaves the default in place.

## Contents
- `Environment` — the texts of the three variables.
- `Environment.readSize?` — a size: an optional plus sign and decimal digits, nothing around them.
- `Config.ofEnvironment` — the settings.
-/

namespace RowStream

/-- The texts of the variables, where `none` means that a variable is not set. -/
structure Environment where
  /-- The text of the buffer size. -/
  joinBufferBytes : Option String := none
  /-- The text of the join strategy. -/
  strategy : Option String := none
  /-- The text of the page size. -/
  scanPageRows : Option String := none
  deriving DecidableEq, Repr

/-- Reads a size: an optional plus sign and one or more ASCII digits that denote a 64-bit word. -/
def Environment.readSize? (s : String) : Option Nat :=
  match s.toList with
  | '+' :: digits => Word.ofDigits? digits
  | digits => Word.ofDigits? digits

/-- The settings that the variables describe. -/
def Config.ofEnvironment (env : Environment) : Config :=
  let defaults : Config := {}
  { joinBufferBytes :=
      (env.joinBufferBytes.bind Environment.readSize?).getD defaults.joinBufferBytes
    strategy :=
      (env.strategy.bind fun s => (Strategy.ofText s).toOption).getD defaults.strategy
    scanPageRows :=
      (env.scanPageRows.bind Environment.readSize?).getD defaults.scanPageRows }

end RowStream
