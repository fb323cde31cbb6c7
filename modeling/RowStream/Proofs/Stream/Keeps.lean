import RowStream.Proofs.Stream.Triple

/-!
# `RowStream.Proofs.Stream.Keeps` — what reading a stream keeps

An operator reads its children by three calls. What all three keep, reading a child to its end keeps
too; what they leave behind when they fail is what a reading that breaks off leaves behind; and what
holds of every row that is taken holds of all rows that are read.

## Contents
- `StreamError.isUsage`, `StreamError.isTyping` — failures of calls in the wrong state, and of rows that
  are not what their columns say.
- `Cursor.Yields` — the three calls keep an invariant, give rows of a kind, and fail in a known way.
- `Yields.foldWith`, `Yields.fold`, `Yields.drain` — so does reading to the end.
- `Cursor.Keeps` — the same without a word on the rows.
- `Cursor.Stays` — every call keeps an invariant, whatever becomes of it.
- `Cursor.Obeys` — besides, it gives rows of a kind and fails in a known way.
-/

namespace RowStream

namespace StreamError

/-- Whether the failure is that of a call in the wrong state. -/
def isUsage : StreamError → Bool
  | .usage _ => true
  | _ => false

/-- Whether the failure is that of a column that is not there, of a value of the wrong type or without
a number, or of a row under columns that it does not fit. -/
def isTyping : StreamError → Bool
  | .data (.schema _) => true
  | .data (.typeMismatch _ _) => true
  | .predicateField _ _ => true
  | .fieldOutOfRange _ _ _ => true
  | .setting (.notNumeric _) => true
  | _ => false

/-- Why memory is refused is no fault of the caller. -/
@[simp] theorem isUsage_ofMemory (e : MemoryError) : (ofMemory e).isUsage = false := by
  cases e <;> rfl

/-- Nor has it to do with the columns. -/
@[simp] theorem isTyping_ofMemory (e : MemoryError) : (ofMemory e).isTyping = false := by
  cases e <;> rfl

end StreamError

namespace Cursor

open Call

variable {σ τ β : Type} [Cursor σ] {store : PageStore}

/-- The calls by which a stream is read keep `I`, and the rows that are taken are of `P`. If one of
the calls fails, the failure is one of `F` and leaves `K` behind. -/
structure Yields (store : PageStore) (P : Row → Prop) (F : StreamError → Prop) (I K : σ → Prop) :
    Prop where
  /-- What a failure leaves behind holds before. -/
  weaken : ∀ {s}, I s → K s
  /-- Looking for a row. -/
  hasNext : Triple store I Cursor.hasNext (fun _ => I) (fun e s => F e ∧ K s)
  /-- Taking a row. -/
  next : Triple store I Cursor.next (fun row s => P row ∧ I s) (fun e s => F e ∧ K s)
  /-- Going back to the first row. -/
  rewind : Triple store I Cursor.rewind (fun _ => I) (fun e s => F e ∧ K s)

namespace Yields

variable {P : Row → Prop} {F : StreamError → Prop} {I K : σ → Prop} {J M : τ → Prop}

/-- Reading a stream to its end, with a step that keeps what is known of its value and of the second
state. -/
theorem foldWith (h : Yields store P F I K) (hJM : ∀ {t}, J t → M t) {A : β → Prop}
    {step : β → Row → Call τ β}
    (hstep : ∀ b row, A b → P row →
      Triple store J (step b row) (fun b t => A b ∧ J t) (fun e t => F e ∧ M t)) {b : β} (hb : A b) :
    Triple store (fun s => I s.1 ∧ J s.2) (Cursor.foldWith step b)
      (fun b s => A b ∧ I s.1 ∧ J s.2) (fun e s => F e ∧ K s.1 ∧ M s.2) := by
  have hleft : ∀ {e : StreamError} {s : σ × τ}, (F e ∧ K s.1) ∧ J s.2 → F e ∧ K s.1 ∧ M s.2 := by
    rintro e s ⟨⟨he, hk⟩, hj⟩
    exact ⟨he, hk, hJM hj⟩
  -- the invariant of the loop has what is known of the value in front
  suffices hloop : Triple store (fun s => A b ∧ I s.1 ∧ J s.2) (Cursor.foldWith step b)
      (fun b s => A b ∧ I s.1 ∧ J s.2) (fun e s => F e ∧ K s.1 ∧ M s.2) from
    hloop.imp (fun _ hs => ⟨hb, hs⟩) (fun _ _ => id) (fun _ _ => id)
  apply Triple.foldWith (I := fun b s => A b ∧ I s.1 ∧ J s.2)
    (T := fun b s => A b ∧ I s.1 ∧ J s.2) (N := fun b row s => (A b ∧ P row) ∧ I s.1 ∧ J s.2)
  · intro b
    apply Triple.given
    intro hb
    refine (h.hasNext.onLeft (F := J)).imp (fun _ => id) (fun more s hs => ?_) (fun e s => hleft)
    cases more <;> exact ⟨hb, hs⟩
  · intro b
    apply Triple.given
    intro hb
    refine (h.next.onLeft (F := J)).imp (fun _ => id) ?_ (fun e s => hleft)
    rintro row s ⟨⟨hrow, hi⟩, hj⟩
    exact ⟨⟨hb, hrow⟩, hi, hj⟩
  · intro b row
    apply Triple.given
    rintro ⟨hb, hrow⟩
    refine ((hstep b row hb hrow).onRight (F := I)).imp (fun _ => id) ?_ ?_
    · rintro b' s ⟨hi, hb', hj⟩
      exact ⟨hb', hi, hj⟩
    · rintro e s ⟨hi, he, hm⟩
      exact ⟨he, h.weaken hi, hm⟩

/-- Reading a stream to its end with a pure step. -/
theorem fold (h : Yields store P F I K) {A : β → Prop} {step : β → Row → Except StreamError β}
    (hok : ∀ b row b', A b → P row → step b row = .ok b' → A b')
    (herr : ∀ b row e, A b → P row → step b row = .error e → F e) {b : β} (hb : A b) :
    Triple store I (Cursor.fold step b) (fun b s => A b ∧ I s) (fun e s => F e ∧ K s) := by
  suffices hloop : Triple store (fun s => A b ∧ I s) (Cursor.fold step b) (fun b s => A b ∧ I s)
      (fun e s => F e ∧ K s) from
    hloop.imp (fun _ hs => ⟨hb, hs⟩) (fun _ _ => id) (fun _ _ => id)
  apply Triple.fold (I := fun b s => A b ∧ I s) (T := fun b s => A b ∧ I s)
    (N := fun b row s => (A b ∧ P row) ∧ I s)
  · intro b
    apply Triple.given
    intro hb
    refine h.hasNext.imp (fun _ => id) (fun more s hs => ?_) (fun _ _ => id)
    cases more <;> exact ⟨hb, hs⟩
  · intro b
    apply Triple.given
    intro hb
    exact h.next.imp (fun _ => id) (fun _ _ hs => ⟨⟨hb, hs.1⟩, hs.2⟩) (fun _ _ => id)
  · rintro b row s b' ⟨⟨hb, hrow⟩, hi⟩ hb'
    exact ⟨hok b row b' hb hrow hb', hi⟩
  · rintro b row s e ⟨⟨hb, hrow⟩, hi⟩ he
    exact ⟨herr b row e hb hrow he, h.weaken hi⟩

/-- Reading a stream from its first row, with a pure step. -/
theorem rewindFold (h : Yields store P F I K) {A : β → Prop} {step : β → Row → Except StreamError β}
    (hok : ∀ b row b', A b → P row → step b row = .ok b' → A b')
    (herr : ∀ b row e, A b → P row → step b row = .error e → F e) {b : β} (hb : A b) :
    Triple store I (Cursor.rewind >>= fun _ => Cursor.fold step b) (fun b s => A b ∧ I s)
      (fun e s => F e ∧ K s) :=
  h.rewind.bind fun _ => h.fold hok herr hb

/-- Collecting the rows of a stream. -/
theorem drain (h : Yields store P F I K) :
    Triple store I Cursor.drain (fun rows s => (∀ row ∈ rows, P row) ∧ I s)
      (fun e s => F e ∧ K s) := by
  refine Triple.bind (h.fold (A := fun rows : Array Row => ∀ row ∈ rows, P row) ?_ ?_ (by simp))
    fun rows => Triple.pure ?_
  · rintro rows row _ hrows hrow ⟨⟩ r hr
    rcases Array.mem_push.1 hr with hr | rfl
    · exact hrows r hr
    · exact hrow
  · intro rows row e _ _ he
    cases he
  · rintro s ⟨hrows, hs⟩
    exact ⟨fun row hrow => hrows row (Array.mem_toList_iff.1 hrow), hs⟩

end Yields

/-- The calls by which a stream is read keep `I`. If one of them fails, the failure is one of `F` and
leaves `K` behind. -/
structure Keeps (store : PageStore) (F : StreamError → Prop) (I K : σ → Prop) : Prop where
  /-- What a failure leaves behind holds before. -/
  weaken : ∀ {s}, I s → K s
  /-- Looking for a row. -/
  hasNext : Triple store I Cursor.hasNext (fun _ => I) (fun e s => F e ∧ K s)
  /-- Taking a row. -/
  next : Triple store I Cursor.next (fun _ => I) (fun e s => F e ∧ K s)
  /-- Going back to the first row. -/
  rewind : Triple store I Cursor.rewind (fun _ => I) (fun e s => F e ∧ K s)

namespace Keeps

variable {F : StreamError → Prop} {I K : σ → Prop}

/-- Such a stream may give any rows. -/
theorem yields (h : Keeps store F I K) : Yields store (fun _ => True) F I K where
  weaken := h.weaken
  hasNext := h.hasNext
  next := h.next.imp (fun _ => id) (fun _ _ hs => ⟨trivial, hs⟩) (fun _ _ => id)
  rewind := h.rewind

/-- Reading a stream to its end with a pure step. -/
theorem fold (h : Keeps store F I K) {step : β → Row → Except StreamError β}
    (hstep : ∀ b row e, step b row = .error e → F e) (b : β) :
    Triple store I (Cursor.fold step b) (fun _ => I) (fun e s => F e ∧ K s) := by
  have hfold := h.yields.fold (A := fun _ : β => True) (fun _ _ _ _ _ _ => trivial)
    (fun b row e _ _ he => hstep b row e he) (b := b) trivial
  exact hfold.imp (fun _ => id) (fun _ _ => And.right) (fun _ _ => id)

end Keeps

/-- Every call keeps `I`, whether it fails or not. -/
structure Stays (store : PageStore) (I : σ → Prop) : Prop where
  /-- Starting. -/
  start : Triple store I Cursor.start (fun _ => I) (fun _ => I)
  /-- Reading. -/
  reads : Keeps store (fun _ => True) I I
  /-- Closing. -/
  close : ∀ {s}, I s → I (Cursor.close s)

/-- Every call keeps `I`. The rows that are taken are of `P`, and the failures of `F`. -/
structure Obeys (store : PageStore) (P : Row → Prop) (F : StreamError → Prop) (I : σ → Prop) :
    Prop where
  /-- Starting. -/
  start : Triple store I Cursor.start (fun _ => I) (fun e s => F e ∧ I s)
  /-- Reading. -/
  reads : Yields store P F I I
  /-- Closing. -/
  close : ∀ {s}, I s → I (Cursor.close s)

namespace Obeys

variable {P : Row → Prop} {F : StreamError → Prop} {I I' : σ → Prop}

/-- The states may be described in another way. -/
theorem congr (h : Obeys store P F I) (hI : ∀ s, I' s ↔ I s) : Obeys store P F I' := by
  obtain rfl : I' = I := funext fun s => propext (hI s)
  exact h

/-- What every call keeps, whatever it gives and however it fails. -/
theorem stays (h : Obeys store P F I) : Stays store I where
  start := h.start.imp (fun _ => id) (fun _ _ => id) (fun _ _ => And.right)
  reads := {
    weaken := id
    hasNext := h.reads.hasNext.imp (fun _ => id) (fun _ _ => id) (fun _ _ hs => ⟨trivial, hs.2⟩)
    next := h.reads.next.imp (fun _ => id) (fun _ _ => And.right) (fun _ _ hs => ⟨trivial, hs.2⟩)
    rewind := h.reads.rewind.imp (fun _ => id) (fun _ _ => id) (fun _ _ hs => ⟨trivial, hs.2⟩) }
  close := h.close

end Obeys

/-- Nothing is said of the rows and the failures. -/
theorem Stays.obeys {I : σ → Prop} (h : Stays store I) :
    Obeys store (fun _ => True) (fun _ => True) I where
  start := h.start.imp (fun _ => id) (fun _ _ => id) (fun _ _ hs => ⟨trivial, hs⟩)
  reads := h.reads.yields
  close := h.close

end Cursor

end RowStream
