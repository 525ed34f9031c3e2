import RadioBroker.Files.Access
import RadioBroker.Generation.Pipeline

/-!
# Where units go

A generation keeps its units or writes them to a folder, as the settings choose once the
declarations had their say: to the target folder, if there is one and it exists.
-/

namespace RadioBroker

/-- What a generation has produced. -/
structure Generation where
  /-- The units that were kept. -/
  units : List GeneratedUnit
  /-- The files that were written. -/
  files : List String
  settings : Settings
  aborted : Bool
deriving Repr

variable {m : Type → Type} [Monad m]

/-- Keeps units in the order in which they come. -/
def Channel.keeping (cancelled : m Bool) : Channel (StateT (List GeneratedUnit) m) where
  emit unit := do
    modify (· ++ [unit])
    pure (.ok ())
  cancelled := StateT.lift cancelled

section Files

variable [FileAccess m]

/-- Writes units to files in a folder and keeps the paths of the files. -/
def Channel.writing (folder : String) (cancelled : m Bool) :
    Channel (StateT (List String) m) where
  emit unit := do
    let path := Path.join folder unit.fileName
    if ← StateT.lift (FileAccess.write path unit.source) then
      modify (· ++ [path])
      pure (.ok ())
    else pure (.error ⟨path⟩)
  cancelled := StateT.lift cancelled

/-- The declarations in a file. -/
def readDeclarations (path : String) : m (Except SourceError (List Declaration)) := do
  match ← FileAccess.read path with
  | none => pure (.error (.unreadable path))
  | some text => pure ((Declaration.parseAll text).mapError SourceError.badText)

/-- The folder that units are written to, if they are and the folder exists. -/
def Settings.outputFolder (settings : Settings) : m (Option String) := do
  match settings.generateToFile, settings.targetFolder with
  | true, some folder =>
    if ← FileAccess.isFolder folder then pure (some folder) else pure none
  | _, _ => pure none

namespace Generation

/-- Generates into files in a folder. -/
def runInto (settings : Settings) (declarations : List Declaration) (folder : String)
    (cancelled : m Bool) : m (Report Generation) := do
  let channel := Channel.writing folder cancelled
  let (report, files) ← (channel.generate settings declarations).run []
  pure (report.map fun summary => ⟨[], files, summary.settings, summary.aborted⟩)

/-- Generates units that are kept. -/
def runKeeping (settings : Settings) (declarations : List Declaration) (cancelled : m Bool) :
    m (Report Generation) := do
  let channel := Channel.keeping cancelled
  let (report, units) ← (channel.generate settings declarations).run []
  pure (report.map fun summary => ⟨units, [], summary.settings, summary.aborted⟩)

/-- Generates to where the settings say. -/
def run (settings : Settings) (declarations : List Declaration) (cancelled : m Bool) :
    m (Report Generation) := do
  match ← (settings.mergeDeclarations declarations).outputFolder with
  | some folder => runInto settings declarations folder cancelled
  | none => runKeeping settings declarations cancelled

end Generation

end Files

end RadioBroker
