import RadioBroker.Diagnostic.Basic
import RadioBroker.Files.Access
import RadioBroker.Path

/-!
# Notices

A diagnostic as it is shown to its reader: with the text it points into where that can be read, and
with the place behind the message where it cannot.
-/

namespace RadioBroker

/-- A diagnostic, ready to be shown. -/
structure Notice where
  diagnostic : Diagnostic
  message : String
  /-- The declaring file, by name and text. -/
  source : Option (String × String)
deriving DecidableEq, Repr

namespace Notice

/-- What else is said. -/
def help (notice : Notice) : Option String :=
  if notice.diagnostic.isFatal then some "no code was generated" else none

/-- The first byte and the number of bytes that are pointed at. -/
def span (notice : Notice) : Nat × Nat :=
  (notice.diagnostic.location.start, notice.diagnostic.location.length)

/-- What stands at the bytes that are pointed at, if their text can be shown. -/
def label? (notice : Notice) : Option String :=
  notice.source.map fun _ => "error here"

variable {m : Type → Type} [Monad m] [FileAccess m]

/-- The text of the declaring file, if the location lies within it. Relative names are meant below
`folder`. -/
def readSource (location : Location) (folder : Option String) : m (Option (String × String)) := do
  match location.file with
  | none => pure none
  | some file =>
    let path :=
      match folder with
      | some folder => Path.join folder file
      | none => file
    match ← FileAccess.read path with
    | none => pure none
    | some text =>
      if location.stop ≤ text.utf8ByteSize then pure (some (file, text)) else pure none

/-- The notice of a diagnostic. -/
def ofDiagnostic (diagnostic : Diagnostic) (folder : Option String) : m Notice := do
  let source ← readSource diagnostic.location folder
  let message :=
    if source.isSome || diagnostic.location.isUnknown then diagnostic.problem.message
    else diagnostic.problem.message ++ " (" ++ diagnostic.location.display ++ ")"
  pure ⟨diagnostic, message, source⟩

end Notice

end RadioBroker
