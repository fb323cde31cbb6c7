import RowStream.Json.Token

/-!
# `RowStream.Json.Parse` — JSON values from tokens

## Contents
- `Json.value`, `Json.elements`, `Json.members` — a value at the front of the tokens, and the rest
  of an array and an object.
- `Json.parse` — the value that a whole text is.
-/

namespace RowStream.Json

mutual

/-- A value at the front, and what follows, as far as `depth` calls go. -/
def value : (depth : Nat) → List Token → Option (Json × List Token)
  | _, .value v :: ts => some (v, ts)
  | _, .openArray :: .closeArray :: ts => some (.array [], ts)
  | depth + 1, .openArray :: ts => do
    let (vs, ts) ← elements depth ts
    return (.array vs, ts)
  | _, .openObject :: .closeObject :: ts => some (.object [], ts)
  | depth + 1, .openObject :: ts => do
    let (ms, ts) ← members depth ts
    return (.object ms, ts)
  | _, _ => none

/-- One or more elements and a closing bracket, and what follows. -/
def elements : (depth : Nat) → List Token → Option (List Json × List Token)
  | 0, _ => none
  | depth + 1, ts => do
    let (v, ts) ← value depth ts
    match ts with
    | .closeArray :: ts => return ([v], ts)
    | .comma :: ts =>
      let (vs, ts) ← elements depth ts
      return (v :: vs, ts)
    | _ => none

/-- One or more members and a closing brace, and what follows. -/
def members : (depth : Nat) → List Token → Option (List (Option String × Json) × List Token)
  | depth + 1, .value (.string k) :: .colon :: ts => do
    let (v, ts) ← value depth ts
    match ts with
    | .closeObject :: ts => return ([(k, v)], ts)
    | .comma :: ts =>
      let (ms, ts) ← members depth ts
      return ((k, v) :: ms, ts)
    | _ => none
  | _, _ => none

end

/-- The value that the text is. Two calls for each token are enough, since every element takes a
token of its own. -/
def parse (s : String) : Option Json := do
  let ts ← tokens s.toList
  match value (2 * ts.length) ts with
  | some (v, []) => some v
  | _ => none

end RowStream.Json
