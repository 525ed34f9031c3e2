import RadioBroker.Naming
import RadioBroker.Program.Basic
import RadioBroker.Path

/-!
# Settings

What an author or a host can choose: the startup hook, and whether units are kept or written to a
folder. An attribute on a declared interface overrides what the host has set.
-/

namespace RadioBroker

/-- The choices for a generation. -/
structure Settings where
  /-- The namespace of the startup hook. -/
  customNamespace : Option String := none
  /-- The name of the assembly, which tells startup hooks apart. -/
  assemblyName : Option String := none
  /-- Whether units are written to files. -/
  generateToFile : Bool := false
  /-- The folder that files are written to. -/
  targetFolder : Option String := none
  /-- Whether the startup hook runs without being called. -/
  useModuleInitializer : Bool := true
deriving DecidableEq, Inhabited, Repr

namespace Settings

/-- Sets the namespace of the startup hook. -/
def withCustomNamespace (settings : Settings) (name : String) : Settings :=
  { settings with customNamespace := some name }

/-- Sets the name of the assembly. -/
def withAssemblyName (settings : Settings) (name : String) : Settings :=
  { settings with assemblyName := some name }

/-- Has units written to a folder. -/
def withTargetFolder (settings : Settings) (folder : String) : Settings :=
  { settings with generateToFile := true, targetFolder := some folder }

/-- Sets whether the startup hook runs without being called. -/
def withModuleInitializer (settings : Settings) (enabled : Bool) : Settings :=
  { settings with useModuleInitializer := enabled }

/-- The namespace of the startup hook that was set; an empty one is none. -/
def hookNamespace? (settings : Settings) : Option String :=
  settings.customNamespace.filter (· ≠ "")

/-- The namespace of the startup hook. -/
def moduleNamespace (settings : Settings) : String :=
  settings.hookNamespace?.getD "CrossChannel"

/-- The class name of the startup hook. -/
def moduleClassName (settings : Settings) : String :=
  Naming.moduleClassName settings.hookNamespace? settings.assemblyName

/-- The startup hook. -/
def hook (settings : Settings) : ModuleHook :=
  ⟨settings.moduleNamespace, settings.moduleClassName, settings.useModuleInitializer⟩

/-- Applies one named argument of the settings attribute. A name or value that means nothing
changes nothing. -/
def applyArgument (settings : Settings) : String × AttributeValue → Settings
  | ("GenerateToFile", .bool enabled) => { settings with generateToFile := enabled }
  | ("CustomNamespace", .string name) => { settings with customNamespace := some name }
  | ("UseModuleInitializer", .bool enabled) => { settings with useModuleInitializer := enabled }
  | _ => settings

/-- The name of the folder next to a declaring file that generated files go to. -/
def generatedFolder : String := "Generated"

/-- Applies the settings attribute. Where the declaring file is known, the folder next to it
becomes the target. -/
def applyAttribute (settings : Settings) (mark : Attribute) (declaringFile : Option String) :
    Settings :=
  let settings := mark.namedArguments.foldl applyArgument settings
  match declaringFile with
  | none => settings
  | some file =>
    { settings with
      targetFolder := some (Path.join ((Path.parent? file).getD "") generatedFolder) }

/-- The first settings attribute on an interface, with the file that declares the interface. -/
def attributeIn? (declarations : List Declaration) : Option (Attribute × Option String) :=
  declarations.findSome? fun declaration =>
    if declaration.kind = .interface then
      (declaration.attribute? settingsAttributeName).map fun mark =>
        (mark, declaration.location.file)
    else none

/-- The settings after the settings attribute of some declarations, if they have one. -/
def mergeDeclarations (settings : Settings) (declarations : List Declaration) : Settings :=
  match attributeIn? declarations with
  | none => settings
  | some (mark, file) => settings.applyAttribute mark file

end Settings

end RadioBroker
