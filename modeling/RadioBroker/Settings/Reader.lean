import RadioBroker.Json.Field
import RadioBroker.Settings.Basic

/-!
# Reading settings

Settings as JSON text: an object in which every key is known and none is repeated, or an array of
the fields in order. Fields that are left out keep their defaults. The text is matched while it is
read, so the first thing that is wrong decides the error.
-/

namespace RadioBroker.Settings

open Json (ReadError)
open Text (Shorter)

/-- The fields in order. -/
def fieldNames : List String :=
  ["custom_namespace", "assembly_name", "generate_to_file", "target_folder",
   "use_module_initializer"]

/-- Reads the value of a field. -/
def readField (settings : Settings) (name : String) (cs : List Char) :
    Except ReadError (Settings × Shorter cs) :=
  match name with
  | "custom_namespace" => do
    let (value, rest) ← Json.readOptionalString cs
    .ok ({ settings with customNamespace := value }, rest)
  | "assembly_name" => do
    let (value, rest) ← Json.readOptionalString cs
    .ok ({ settings with assemblyName := value }, rest)
  | "generate_to_file" => do
    let (value, rest) ← Json.readFlag cs
    .ok ({ settings with generateToFile := value }, rest)
  | "target_folder" => do
    let (value, rest) ← Json.readOptionalString cs
    .ok ({ settings with targetFolder := value }, rest)
  | "use_module_initializer" => do
    let (value, rest) ← Json.readFlag cs
    .ok ({ settings with useModuleInitializer := value }, rest)
  | _ => .error .mismatch

/-- Reads the members of an object, of which those in `remaining` may still come. -/
def readMembers (settings : Settings) (remaining : List String) (first : Bool) (cs : List Char) :
    Except ReadError (Settings × Shorter cs) := do
  match ← Json.nextMember first cs with
  | .close rest => .ok (settings, rest)
  | .key name ⟨afterKey, hkey⟩ =>
    if name ∈ remaining then do
      let ⟨start, hstart⟩ ← Json.readColon afterKey
      let (settings, ⟨behind, hbehind⟩) ← settings.readField name start
      let (settings, ⟨rest, hrest⟩) ←
        readMembers settings (remaining.filter (· ≠ name)) false behind
      .ok (settings, ⟨rest, by omega⟩)
    else .error .mismatch
termination_by cs.length

/-- Reads the elements of an array, which are the values of `remaining` fields. -/
def readElements (settings : Settings) (first : Bool) :
    (remaining : List String) → (cs : List Char) → Except ReadError (Settings × Shorter cs)
  | [], cs => do
    let rest ← Json.readClosingBracket cs
    .ok (settings, rest)
  | name :: remaining, cs => do
    match ← Json.nextElement first cs with
    | .close rest => .ok (settings, rest)
    | .element ⟨start, hstart⟩ =>
      let (settings, ⟨behind, hbehind⟩) ← settings.readField name start
      let (settings, ⟨rest, hrest⟩) ← readElements settings false remaining behind
      .ok (settings, ⟨rest, by omega⟩)

/-- The settings a text holds. -/
def parse (text : String) : Except ReadError Settings := do
  let cs := text.toList
  match Json.skipSpace cs with
  | '{' :: opened => do
    let (settings, rest) ← readMembers {} fieldNames true opened
    Json.expectEnd rest.1
    .ok settings
  | '[' :: opened => do
    let (settings, rest) ← readElements {} true fieldNames opened
    Json.expectEnd rest.1
    .ok settings
  | start => do
    let _ ← Json.readScalar start
    .error .mismatch

end RadioBroker.Settings
