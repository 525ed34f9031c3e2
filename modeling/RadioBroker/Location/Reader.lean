import RadioBroker.Declaration.Reader
import RadioBroker.Json.Field

/-!
# Reading locations

A location as a JSON text of its own. The file is matched where it is read; the offsets are matched
at the end of the object, so anything malformed before it is found first.
-/

namespace RadioBroker.Location

open Json (ReadError)
open Text (Shorter)

/-- Reads the members of an object: the file, and all other members as they are. `file` is the
file that was read, if its key was. -/
def readMembers (file : Option (Option String)) (others : List (String × Json)) (first : Bool)
    (cs : List Char) :
    Except ReadError ((Option String × List (String × Json)) × Shorter cs) := do
  match ← Json.nextMember first cs with
  | .close rest => .ok ((file.getD none, others), rest)
  | .key name ⟨afterKey, hkey⟩ =>
    if name = "file" then
      if file.isSome then .error .mismatch
      else do
        let ⟨start, hstart⟩ ← Json.readColon afterKey
        let (value, ⟨behind, hbehind⟩) ← Json.readOptionalString start
        let (members, ⟨rest, hrest⟩) ← readMembers (some value) others false behind
        .ok (members, ⟨rest, by omega⟩)
    else do
      let ⟨start, hstart⟩ ← Json.readColon afterKey
      let (value, ⟨behind, hbehind⟩) ← Json.readValue (Json.depthLimit - 1) start
      let (members, ⟨rest, hrest⟩) ← readMembers file (others ++ [(name, value)]) false behind
      .ok (members, ⟨rest, by omega⟩)
termination_by cs.length

/-- The location a text holds. -/
def parse (text : String) : Except ReadError Location := do
  match Json.skipSpace text.toList with
  | '{' :: opened => do
    let ((file, others), rest) ← readMembers none [] true opened
    match Location.ofJson? (.object others) with
    | none => .error .mismatch
    | some range => do
      Json.expectEnd rest.1
      .ok { range with file }
  | '[' :: _ => .error .mismatch
  | start => do
    let _ ← Json.readScalar start
    .error .mismatch

end RadioBroker.Location
