import RadioBroker.Render.Initializer
import RadioBroker.Render.Statement

/-!
# Rendering source files

The spelling of broker classes and of the scopes around them, and the complete files: one for each
namespace, and one with the root routine and the startup hook.
-/

namespace RadioBroker.Render

open Layout

/-- Members with a blank line between each two of them. -/
def separated (members : List Layout) : Layout :=
  join members (sequence [line, line])

/-- Members as the body of a block. -/
def blockBody (members : List Layout) : Layout :=
  if members.isEmpty then empty else sequence [line, separated members]

/-- A parameter list. -/
def parameterList (types : List TypeExpr) : String :=
  String.intercalate ", " ((types.zip (argumentNames types.length)).map fun (type, name) =>
    type.display ++ " " ++ name)

/-- A method of a broker. -/
def brokerMethod (method : BrokerMethod) : Layout :=
  block
    (sequence
      [if method.isAsync then "async " else "", method.returnType.display, " ", method.interface,
       ".", method.name, "(", parameterList method.parameters, ")"])
    (body method.body)

/-- The routine in which a generic broker registers itself. -/
def selfRegistration (entry : Registration) : Layout :=
  block (sequence ["public static void ", initializerName, "()"])
    (sequence [line, registration entry])

/-- A broker class. -/
def brokerClass (broker : BrokerClass) : Layout :=
  let access := if broker.nested then "private" else "internal"
  let parameters :=
    if broker.typeParameters.isEmpty then "" else Text.angled broker.typeParameters
  let channel := "Channel<" ++ broker.interface ++ ">"
  let fields :=
    [sequence ["private readonly ", channel, " channel;"],
     block (sequence ["public ", broker.name, "(object channel)"])
      (sequence [line, "this.channel = (", channel, ")channel;"])]
  block
    (sequence [access, " class ", broker.name, parameters, " : ", broker.interface])
    (blockBody (fields ++ broker.methods.map brokerMethod ++
      broker.selfRegistration.toList.map selfRegistration))

mutual

/-- An item. -/
def item : Item → Layout
  | .broker broker => brokerClass broker
  | .scope accessibility kind name contents initializer =>
    block
      (sequence [accessibility.keyword, " partial ", kind.keyword, " ", name])
      (blockBody (items contents ++ initializer.toList.map routine))

/-- Several items. -/
def items : List Item → List Layout
  | [] => []
  | first :: rest => item first :: items rest

end

/-- The namespaces that every file makes use of. -/
def usedNamespaces : List String :=
  ["System", "System.Collections.Generic", "System.Diagnostics.CodeAnalysis", "System.Linq",
   "System.Runtime.CompilerServices", "System.Threading.Tasks", "CrossChannel"]

/-- What stands at the top of every file. -/
def header : Layout :=
  sequence
    ["// <auto-generated/>",
     lines (usedNamespaces.map fun (name : String) => sequence ["using ", name, ";"]),
     line, line, "#nullable enable",
     line, "#pragma warning disable CS1591",
     line, "#pragma warning disable CS1998",
     line, line]

/-- The file of a namespace. -/
def namespaceLayout (unit : NamespaceUnit) : Layout :=
  let scope :=
    if unit.namespaceName = "" then empty
    else sequence ["namespace ", unit.namespaceName, ";", line, line]
  sequence [header, scope, separated (items unit.items), line]

/-- The text of the file of a namespace. -/
def namespaceSource (unit : NamespaceUnit) : String := (namespaceLayout unit).render

/-- The file of the root routine and the startup hook. -/
def initializerLayout (root : Routine) (hook : ModuleHook) : Layout :=
  sequence [header, rootClass root, line, line, hookClass hook, line]

/-- The text of the file of the root routine and the startup hook. -/
def initializerSource (root : Routine) (hook : ModuleHook) : String :=
  (initializerLayout root hook).render

end RadioBroker.Render
