import RowStream.Stream.Cursor

/-!
# `RowStream.Stream.Sealed` — a stream of which only the calls are seen

## Contents
- `Sealed` — a stream behind a cover.
- Its calls as a `Cursor`: each is the call of the stream inside.
-/

namespace RowStream

/-- A stream `σ` of which only the calls are seen. -/
structure Sealed (σ : Type) where
  /-- The stream. -/
  inner : σ

namespace Sealed

variable {σ α : Type}

/-- A call on the stream inside. -/
def onInner (c : Call σ α) : Call (Sealed σ) α := Call.zoom inner (fun inner _ => ⟨inner⟩) c

instance [Cursor σ] : Cursor (Sealed σ) where
  schema s := Cursor.schema s.inner
  start := onInner Cursor.start
  hasNext := onInner Cursor.hasNext
  next := onInner Cursor.next
  rewind := onInner Cursor.rewind
  close s := ⟨Cursor.close s.inner⟩
  remaining store s := Cursor.remaining store s.inner
  remaining_hasNext store s := Cursor.remaining_hasNext store s.inner
  remaining_next store s row := Cursor.remaining_next store s.inner row

end Sealed

end RowStream
