import RadioBroker.Layout
import RadioBroker.Program.Basic

/-!
# Rendering routines

The spelling of registrations, of the routines that hold them, and of the classes around the root
routine and the startup hook.
-/

namespace RadioBroker.Render

open Layout

/-- The name of all generated routines. -/
def initializerName : String := "__InitializeCC__"

/-- The namespace of the root routine. -/
def rootNamespace : String := "CrossChannel.Generated"

/-- A registration. -/
def registration (entry : Registration) : Layout :=
  sequence
    ["ChannelRegistry.Register(new(typeof(", entry.interface, "), x => new ", entry.broker,
     "(x), () => new Channel<", entry.interface, ">(), (a) => new Channel<", entry.interface,
     ">(a), ", toString entry.maxLinks, "));"]

/-- The call of the routine of a type. -/
def childCall (child : String) : Layout :=
  sequence [child, ".", initializerName, "();"]

/-- A routine. -/
def routine (routine : Routine) : Layout :=
  block (sequence ["internal static void ", initializerName, "()"])
    (lines (routine.registrations.map registration ++ routine.childCalls.map childCall))

/-- The class of the root routine. -/
def rootClass (root : Routine) : Layout :=
  block (sequence ["namespace ", rootNamespace])
    (sequence [line, block "internal static class Root" (sequence [line, routine root])])

/-- The method that runs the root routine once. -/
def initializeMethod : Layout :=
  block "public static void Initialize()"
    (sequence
      [line, "if (Initialized) return;",
       line, "Initialized = true;",
       line, rootNamespace, ".Root.", initializerName, "();"])

/-- The class of the startup hook. -/
def hookClass (hook : ModuleHook) : Layout :=
  let mark := if hook.useModuleInitializer then sequence [line, "[ModuleInitializer]"] else empty
  block (sequence ["namespace ", hook.namespaceName])
    (sequence
      [line, block (sequence ["public static class ", hook.className])
        (sequence
          [line, "private static bool Initialized;", line, mark, line, initializeMethod])])

end RadioBroker.Render
