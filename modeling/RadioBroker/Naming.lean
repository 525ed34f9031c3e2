import RadioBroker.ContentHash
import RadioBroker.Text.Alphanumeric

/-!
# Generated names

The names of generated classes and units. Each is a function of declared names alone.
-/

namespace RadioBroker.Naming

/-- The class name of the broker for an interface: its simple name and the low 32 bits of the hash
of its full name, as in `__ICalc_Broker_1a2b3c4d__`. -/
def brokerClassName (simpleName fullName : String) : String :=
  "__" ++ simpleName ++ "_Broker_" ++
    ContentHash.hexDigits 8 (ContentHash.hash64 fullName).toNat ++ "__"

theorem brokerClassName_ne_empty (simpleName fullName : String) :
    brokerClassName simpleName fullName ≠ "" := by
  intro h
  have hlength := congrArg String.length h
  simp [brokerClassName, String.length_append] at hlength

/-- An assembly name as a piece of an identifier: what cannot stand in one becomes `_`. -/
def assemblyIdentifier (assemblyName : String) : String :=
  String.ofList (assemblyName.toList.map fun c =>
    if Text.isAlphanumeric c || c == '_' then c else '_')

/-- The class name of the startup hook. A nonempty assembly name is its suffix, unless the hook
has a namespace of its own. -/
def moduleClassName (customNamespace assemblyName : Option String) : String :=
  match customNamespace, assemblyName with
  | none, some assembly =>
    if assembly = "" then "CrossChannelModule"
    else "CrossChannelModule_" ++ assemblyIdentifier assembly
  | _, _ => "CrossChannelModule"

/-- The name of the unit that holds the root routine and the startup hook. -/
def rootUnitName : String := "gen.CrossChannel"

/-- The name of the unit that holds the brokers of a namespace. -/
def unitName (namespaceName : String) : String :=
  if namespaceName = "" then rootUnitName ++ ".global"
  else rootUnitName ++ "." ++ namespaceName

end RadioBroker.Naming
