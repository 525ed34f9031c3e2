import RadioBroker.Json.Reader

/-!
# Reading fields in place

Readers for values of a known shape inside a JSON text. A scalar is read to its end before its shape
is looked at; an array or object where a scalar is wanted is a mismatch at once.
-/

namespace RadioBroker.Json

open Text (Shorter)

/-- Reads a scalar, wherever one is wanted. -/
def readScalarField (cs : List Char) : Except ReadError (Json × Shorter cs) :=
  match hcs : skipSpace cs with
  | '[' :: _ => .error .mismatch
  | '{' :: _ => .error .mismatch
  | start => do
    let (value, ⟨rest, hrest⟩) ← readScalar start
    .ok (value, ⟨rest, Nat.lt_of_lt_of_le hrest (hcs ▸ length_skipSpace_le cs)⟩)

/-- Reads a string or null. -/
def readOptionalString (cs : List Char) : Except ReadError (Option String × Shorter cs) := do
  match ← readScalarField cs with
  | (.null, rest) => .ok (none, rest)
  | (.string text, rest) => .ok (some text, rest)
  | _ => .error .mismatch

/-- Reads a truth value. -/
def readFlag (cs : List Char) : Except ReadError (Bool × Shorter cs) := do
  match ← readScalarField cs with
  | (.bool value, rest) => .ok (value, rest)
  | _ => .error .mismatch

/-- Reads the bracket that ends an array behind its last wanted element. -/
def readClosingBracket (cs : List Char) : Except ReadError (Shorter cs) :=
  have hskip := length_skipSpace_le cs
  match hcs : skipSpace cs with
  | [] => .error .truncated
  | ']' :: rest => .ok ⟨rest, by rw [hcs] at hskip; exact hskip⟩
  | _ => .error .malformed

end RadioBroker.Json
