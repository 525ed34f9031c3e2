import RadioBroker.Command.Basic

/-!
# The generate command

Units go to a folder that is named on the command line, or to the target folder that the settings
choose, or to the output.
-/

namespace RadioBroker.Command

/-- What may be asked of a generation. -/
structure GenerateRequest where
  /-- The path of the declarations. -/
  declarations : String
  config : Option String := none
  customNamespace : Option String := none
  assemblyName : Option String := none
  noModuleInitializer : Bool := false
  /-- The folder for the units. -/
  outputFolder : Option String := none
deriving DecidableEq, Repr

/-- The settings with what is asked on the command line. -/
def GenerateRequest.override (request : GenerateRequest) (settings : Settings) : Settings :=
  let settings :=
    match request.customNamespace with
    | some name => settings.withCustomNamespace name
    | none => settings
  let settings :=
    match request.assemblyName with
    | some name => settings.withAssemblyName name
    | none => settings
  if request.noModuleInitializer then settings.withModuleInitializer false else settings

/-- A unit on the output, below a line with its file name. -/
def unitOutput (unit : GeneratedUnit) : String :=
  "// ---- " ++ unit.fileName ++ " ----\n" ++ unit.source

/-- What a generation says. -/
def resultOf (declarations : String) (report : Report Generation) (notices : List Notice) :
    CommandResult :=
  match report.result with
  | .error cause => { notices, failure := some (.generation declarations cause) }
  | .ok generation =>
    if generation.aborted then { notices, failure := some (.fatal false) }
    else
      { output := String.join (generation.units.map unitOutput)
        notices
        written := generation.files
        failure := failureOf report.diagnostics }

variable {m : Type → Type} [Monad m] [FileAccess m]

/-- Generates with settings that are final, but for the settings attribute. -/
def generateFrom (request : GenerateRequest) (settings : Settings) (cancelled : m Bool) :
    m (Report Generation) := do
  match ← readDeclarations request.declarations with
  | .error cause => pure (.failed (.source cause))
  | .ok declarations =>
    match request.outputFolder with
    | some folder => Generation.runInto settings declarations folder cancelled
    | none => Generation.run settings declarations cancelled

/-- Runs the command. -/
def generate (request : GenerateRequest) (cancelled : m Bool) : m CommandResult := do
  match ← loadSettings request.declarations request.config with
  | .error cause => pure { failure := some (.config cause) }
  | .ok settings =>
    let made ← match request.outputFolder with
      | some folder => FileAccess.makeFolders folder
      | none => pure true
    if made then
      let report ← generateFrom request (request.override settings) cancelled
      let notices ← noticesOf report.diagnostics request.declarations
      pure (resultOf request.declarations report notices)
    else pure { failure := some (.outputFolder (request.outputFolder.getD "")) }

end RadioBroker.Command
