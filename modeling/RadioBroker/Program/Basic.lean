import RadioBroker.Declaration.Basic
import RadioBroker.Dispatch.Kind
import RadioBroker.Dispatch.Statement

/-!
# Generated programs

What is generated, said by meaning: broker classes in the types that enclose them, and routines that
register brokers. How it is spelled is decided where it is rendered.
-/

namespace RadioBroker

/-- Registers the broker of one closed interface. -/
structure Registration where
  /-- The full name of the interface. -/
  interface : String
  /-- The full name of the broker type, with its type arguments. -/
  broker : String
  maxLinks : Int
deriving DecidableEq, Inhabited, Repr

/-- The registrations of one level of nesting, and the types below whose routines are called. -/
structure Routine where
  registrations : List Registration := []
  childCalls : List String := []
deriving DecidableEq, Inhabited, Repr

/-- Whether a routine does nothing. -/
def Routine.isEmpty (routine : Routine) : Bool :=
  routine.registrations.isEmpty && routine.childCalls.isEmpty

/-- A method of a broker class. -/
structure BrokerMethod where
  name : String
  /-- The interface the method is implemented for. -/
  interface : String
  returnType : TypeExpr
  parameters : List TypeExpr
  kind : DispatchKind
  body : List Statement
deriving Inhabited, Repr

/-- Whether the method waits for pending operations. -/
def BrokerMethod.isAsync (method : BrokerMethod) : Bool := method.kind.isAsync

/-- A class that implements one marked interface. -/
structure BrokerClass where
  name : String
  typeParameters : List String
  /-- Whether a type encloses the class. -/
  nested : Bool
  /-- The interface, as it is written at the level of the class. -/
  interface : String
  methods : List BrokerMethod
  /-- What the class of a generic interface registers when it is first used. -/
  selfRegistration : Option Registration
deriving Inhabited, Repr

/-- A generated item. -/
inductive Item where
  | broker (broker : BrokerClass)
  /-- One more part of a declared type, which holds items and perhaps a routine. -/
  | scope (accessibility : Accessibility) (kind : TypeKind) (name : String) (items : List Item)
      (initializer : Option Routine)
deriving Inhabited, Repr

/-- What is generated for one namespace. -/
structure NamespaceUnit where
  namespaceName : String
  items : List Item
deriving Inhabited, Repr

/-- The class that runs the root routine when the process starts. -/
structure ModuleHook where
  namespaceName : String
  className : String
  useModuleInitializer : Bool
deriving DecidableEq, Inhabited, Repr

/-- All that is generated in one go. -/
structure Program where
  units : List NamespaceUnit
  /-- The routine of the types that no type encloses. -/
  root : Routine
  hook : ModuleHook
deriving Inhabited, Repr

end RadioBroker
