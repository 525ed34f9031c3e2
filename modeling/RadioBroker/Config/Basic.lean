import RadioBroker.Config.Statement
import RadioBroker.Files.Access
import RadioBroker.Settings.Basic

/-!
# Configuration files

A configuration file sets the settings that a host starts from, in its only table `generator`. The
table is written in one of three ways: under a header, inline, or by dotted keys. A relative target
folder is meant below the folder of the file.
-/

namespace RadioBroker.Config

/-- The ways in which the table of settings may be written. -/
inductive Form where
  | header
  | inline
  | dotted
deriving DecidableEq, Repr

/-- The settings that have been read so far. -/
structure Progress where
  settings : Settings := {}
  /-- The names of the settings that have been set. -/
  assigned : List String := []
  /-- How the table is written, once it has begun. -/
  form : Option Form := none
deriving Repr

namespace Progress

/-- Sets a setting, which has to be one and must not have been set. -/
def assign (progress : Progress) (name : String) (value : Scalar) : Option Progress :=
  if name ∈ progress.assigned then none
  else
    let settings := progress.settings
    let next : Option Settings :=
      match name, value with
      | "custom_namespace", .string text => some { settings with customNamespace := some text }
      | "assembly_name", .string text => some { settings with assemblyName := some text }
      | "generate_to_file", .bool flag => some { settings with generateToFile := flag }
      | "target_folder", .string text => some { settings with targetFolder := some text }
      | "use_module_initializer", .bool flag =>
        some { settings with useModuleInitializer := flag }
      | _, _ => none
    next.map fun settings => { progress with settings, assigned := name :: progress.assigned }

/-- Sets the settings of an inline table. -/
def assignAll (progress : Progress) (entries : List (String × Scalar)) : Option Progress :=
  entries.foldlM (fun progress (name, value) => progress.assign name value) progress

/-- Takes in a statement. -/
def addStatement (progress : Progress) (statement : Statement) : Option Progress :=
  match progress.form, statement with
  | none, .header ["generator"] => some { progress with form := some .header }
  | none, .entry ["generator"] (.table entries) =>
    { progress with form := some .inline }.assignAll entries
  | none, .entry ["generator", name] (.scalar value) =>
    { progress with form := some .dotted }.assign name value
  | some .dotted, .entry ["generator", name] (.scalar value) => progress.assign name value
  | some .header, .entry [name] (.scalar value) => progress.assign name value
  | _, _ => none

end Progress

/-- The settings that a text sets. -/
def parse (text : String) : Option Settings := do
  let statements ← parseStatements text
  let progress ← statements.foldlM Progress.addStatement {}
  some progress.settings

/-- Why the settings of a file cannot be had. -/
inductive Error where
  /-- The file cannot be read. -/
  | unreadable (path : String)
  /-- The text of the file cannot be understood. -/
  | malformed (path : String)
  /-- Whether there is a file cannot be found out. -/
  | unknown (path : String)
deriving DecidableEq, Repr

/-- The text of an error. -/
def Error.message : Error → String
  | unreadable path => "Failed to read config '" ++ path ++ "'"
  | malformed path => "Failed to parse config '" ++ path ++ "'"
  | unknown path => "Failed to stat config '" ++ path ++ "'"

/-- The settings with a relative target folder meant below the folder of the file at `path`. -/
def placeTarget (path : String) (settings : Settings) : Settings :=
  match settings.targetFolder, Path.parent? path with
  | some folder, some around =>
    if Path.isAbsolute folder then settings
    else { settings with targetFolder := some (Path.join around folder) }
  | _, _ => settings

/-- The name of the file that is looked for. -/
def fileName : String := "crosschannel.toml"

variable {m : Type → Type} [Monad m] [FileAccess m]

/-- The settings in the file at `path`. -/
def load (path : String) : m (Except Error Settings) := do
  match ← FileAccess.read path with
  | none => pure (.error (.unreadable path))
  | some text =>
    match parse text with
    | none => pure (.error (.malformed path))
    | some settings => pure (.ok (placeTarget path settings))

/-- The settings in the configuration file of a folder, if it has one. -/
def find (folder : String) : m (Except Error (Option Settings)) := do
  let path := Path.join folder fileName
  match ← FileAccess.present? path with
  | none => pure (.error (.unknown path))
  | some false => pure (.ok none)
  | some true => return (← load path).map some

end RadioBroker.Config
