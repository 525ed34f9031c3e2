import RadioBroker.Command.Notice
import RadioBroker.Config.Basic
import RadioBroker.Generation.Run

/-!
# Commands

What both commands share: the settings they start from, how they report, and how they fail.
-/

namespace RadioBroker

/-- Why a command fails. -/
inductive CommandError where
  | config (cause : Config.Error)
  /-- The folder for the units cannot be made. -/
  | outputFolder (path : String)
  /-- The generation from the declarations in a file ended early. -/
  | generation (path : String) (cause : GenerateError)
  /-- The declarations in a file cannot be had. -/
  | source (path : String) (cause : SourceError)
  /-- The declarations make no graph. -/
  | declarations (cause : BuildError)
  /-- Something fatal was reported, in a generation or in a check. -/
  | fatal (checking : Bool)
  /-- Errors were reported. -/
  | problems (count : Nat)
deriving DecidableEq, Repr

namespace CommandError

/-- The text of an error. -/
def message : CommandError → String
  | config cause => cause.message
  | outputFolder path => "Failed to create output directory '" ++ path ++ "'"
  | generation path _ => "Failed to generate from '" ++ path ++ "'"
  | source path _ => "Failed to read declarations '" ++ path ++ "'"
  | declarations _ => "Invalid declaration set"
  | fatal checking =>
    (if checking then "Check failed" else "Generation aborted") ++
      ": a fatal diagnostic was reported"
  | problems count => toString count ++ " error(s) reported"

/-- The text of the error behind an error. -/
def cause? : CommandError → Option String
  | generation _ cause => some cause.message
  | source _ cause => some cause.message
  | declarations cause => some cause.message
  | _ => none

end CommandError

/-- What a command says. -/
structure CommandResult where
  /-- What goes to the output. -/
  output : String := ""
  /-- The diagnostics, as they are shown. -/
  notices : List Notice := []
  /-- The files that have been written. -/
  written : List String := []
  failure : Option CommandError := none
deriving Repr

/-- What is said about the files that have been written. -/
def CommandResult.writtenText (result : CommandResult) : String :=
  String.join (result.written.map fun path => "Wrote " ++ path ++ "\n")

namespace Command

/-- The folder that holds the declarations at a path. -/
def folderOf (declarations : String) : String :=
  match Path.parent? declarations with
  | none => "."
  | some folder => if folder = "" then "." else folder

variable {m : Type → Type} [Monad m] [FileAccess m]

/-- The settings to start from: those of the given configuration file, or of the one next to the
declarations, or the defaults. -/
def loadSettings (declarations : String) (config : Option String) :
    m (Except Config.Error Settings) := do
  match config with
  | some path => Config.load path
  | none => return (← Config.find (folderOf declarations)).map fun found => found.getD {}

/-- The notices of diagnostics on the declarations at a path. -/
def noticesOf (diagnostics : List Diagnostic) (declarations : String) : m (List Notice) :=
  diagnostics.mapM fun diagnostic =>
    Notice.ofDiagnostic diagnostic (some (folderOf declarations))

/-- The failure of a command that has reported some diagnostics. -/
def failureOf (diagnostics : List Diagnostic) : Option CommandError :=
  if diagnostics.isEmpty then none else some (.problems diagnostics.length)

end Command

end RadioBroker
