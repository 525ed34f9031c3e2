import RadioBroker.Location
import RadioBroker.TypeExpr.Printer

/-!
# Declarations

What a host tells about its types: names, nesting, generic shape, extended interfaces, attributes
and methods. The full name of a declaration is its identity; relations between declarations are
written as full names.
-/

namespace RadioBroker

/-- The kind of a declared type. -/
inductive TypeKind where
  | interface
  | classType
  | structType
  | record
deriving DecidableEq, Inhabited, Repr

/-- The keyword that declares a type of this kind. -/
def TypeKind.keyword : TypeKind → String
  | interface => "interface"
  | classType => "class"
  | structType => "struct"
  | record => "record"

/-- Who may refer to a declared type. -/
inductive Accessibility where
  | publicAccess
  | internalAccess
  | protectedAccess
  | protectedInternal
  | privateAccess
  | privateProtected
deriving DecidableEq, Inhabited, Repr

/-- The modifiers that declare an accessibility. -/
def Accessibility.keyword : Accessibility → String
  | publicAccess => "public"
  | internalAccess => "internal"
  | protectedAccess => "protected"
  | protectedInternal => "protected internal"
  | privateAccess => "private"
  | privateProtected => "private protected"

/-- The generic shape of a declared type. -/
inductive Generics where
  /-- No type parameters. -/
  | notGeneric
  /-- A definition over type parameters, such as `IBox<T>`. -/
  | openOver (parameters : List String)
  /-- A definition, by full name, applied to arguments, such as `IBox<int>`. -/
  | closedOver (definition : String) (arguments : List TypeExpr)
deriving DecidableEq, Inhabited, Repr

namespace Generics

/-- Whether the shape is that of a definition over type parameters. -/
def isOpen : Generics → Bool
  | openOver _ => true
  | _ => false

/-- Whether the shape is that of an applied definition. -/
def isClosed : Generics → Bool
  | closedOver _ _ => true
  | _ => false

/-- The type parameters of a definition. -/
def parameters : Generics → List String
  | openOver parameters => parameters
  | _ => []

/-- What stands in angle brackets behind the name of a declared type. -/
def display : Generics → String
  | notGeneric => ""
  | openOver parameters => Text.angled parameters
  | closedOver _ arguments => Text.angled (arguments.map TypeExpr.display)

end Generics

/-- A value passed to an attribute. -/
inductive AttributeValue where
  | bool (value : Bool)
  /-- An integer of 64 bits with sign. -/
  | integer (value : Int)
  | string (value : String)
deriving DecidableEq, Inhabited, Repr

/-- The text of an attribute value. -/
def AttributeValue.display : AttributeValue → String
  | bool value => if value then "true" else "false"
  | integer value => toString value
  | string value => value

/-- An attribute applied to a type. -/
structure Attribute where
  /-- The full name of the attribute class, with or without the word `Attribute` at its end. -/
  name : String
  arguments : List AttributeValue := []
  /-- The named arguments, in the order in which their names are first written. -/
  namedArguments : List (String × AttributeValue) := []
  location : Location := {}
deriving DecidableEq, Inhabited, Repr

namespace Attribute

/-- Whether the attribute is of the class with that full name; the word `Attribute` at the end of
the name may be left out where an attribute is applied. -/
def isNamed (mark : Attribute) (className : String) : Bool :=
  mark.name = className || mark.name ++ "Attribute" = className

/-- The value of a named argument. -/
def named? (mark : Attribute) (name : String) : Option AttributeValue :=
  mark.namedArguments.lookup name

/-- Sets a named argument. A name that is there keeps its place. -/
def setNamed (name : String) (value : AttributeValue) :
    List (String × AttributeValue) → List (String × AttributeValue)
  | [] => [(name, value)]
  | entry :: entries =>
    if entry.1 = name then (name, value) :: entries else entry :: setNamed name value entries

/-- An attribute with one more named argument. -/
def withNamed (mark : Attribute) (name : String) (value : AttributeValue) : Attribute :=
  { mark with namedArguments := setNamed name value mark.namedArguments }

end Attribute

/-- A method listed on a type. -/
structure Method where
  name : String
  returnType : TypeExpr
  parameters : List TypeExpr := []
  /-- The full name of the declaring type, when it is not the type the method is listed on. -/
  declaredIn : Option String := none
  location : Location := {}
deriving DecidableEq, Inhabited, Repr

/-- A declared type. -/
structure Declaration where
  /-- The simple name, without namespace, enclosing types and generic parameters. -/
  name : String
  /-- The identity: the qualified name with generic parameters or arguments. -/
  fullName : String
  namespaceName : String := ""
  kind : TypeKind
  accessibility : Accessibility := .publicAccess
  isPartial : Bool := false
  /-- The full name of the enclosing type. -/
  containingType : Option String := none
  generics : Generics := .notGeneric
  /-- The interfaces the type extends directly. -/
  interfaces : List TypeExpr := []
  attributes : List Attribute := []
  methods : List Method := []
  location : Location := {}
deriving DecidableEq, Inhabited, Repr

namespace Declaration

/-- The name as it is written inside the enclosing scope. -/
def localName (declaration : Declaration) : String :=
  declaration.name ++ declaration.generics.display

/-- The full name up to its first angle bracket, which all generic relatives of a type share. -/
def familyName (declaration : Declaration) : String :=
  Text.before '<' declaration.fullName

/-- Whether the type is a definition over type parameters. -/
def isOpen (declaration : Declaration) : Bool := declaration.generics.isOpen

/-- The first attribute of a class. -/
def attribute? (declaration : Declaration) (className : String) : Option Attribute :=
  declaration.attributes.find? fun mark => mark.isNamed className

/-- Whether a method listed on the type is declared there too. -/
def owns (declaration : Declaration) (method : Method) : Bool :=
  method.declaredIn.getD declaration.fullName = declaration.fullName

end Declaration

/-- The full name of the marker attribute that asks for a broker. -/
def markerName : String := "CrossChannel.RadioServiceInterfaceAttribute"

/-- The full name of the attribute that carries generator settings. -/
def settingsAttributeName : String := "CrossChannel.CrossChannelGeneratorOptionAttribute"

/-- The full name of the interface that every marked interface has to extend. -/
def baseInterfaceName : String := "CrossChannel.IRadioService"

end RadioBroker
