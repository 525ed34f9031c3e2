import RadioBroker.Naming
import RadioBroker.Program.Synthesis
import RadioBroker.Render.Source

/-!
# Generated units

A unit is a named source text. `ServiceModel.generate` makes all units of a model at once: one for
each namespace with content, and the root unit last.
-/

namespace RadioBroker

/-- A generated source text. -/
structure GeneratedUnit where
  /-- The name under which the unit is known. -/
  hintName : String
  source : String
deriving DecidableEq, Repr

namespace GeneratedUnit

/-- The name of the file the unit is written to. -/
def fileName (unit : GeneratedUnit) : String := unit.hintName ++ ".cs"

/-- The unit of a namespace. -/
def ofNamespace (unit : NamespaceUnit) : GeneratedUnit :=
  ⟨Naming.unitName unit.namespaceName, Render.namespaceSource unit⟩

/-- The unit of the root routine and the startup hook. -/
def ofRoot (root : Routine) (hook : ModuleHook) : GeneratedUnit :=
  ⟨Naming.rootUnitName, Render.initializerSource root hook⟩

end GeneratedUnit

/-- The units of a program. -/
def Program.generatedUnits (program : Program) : List GeneratedUnit :=
  program.units.map GeneratedUnit.ofNamespace ++ [.ofRoot program.root program.hook]

/-- All units of a model. -/
def ServiceModel.generate (model : ServiceModel) (hook : ModuleHook) (cancelled : Bool) :
    Except SynthesisError (List GeneratedUnit) :=
  (model.synthesize hook cancelled).map Program.generatedUnits

end RadioBroker
