import RadioBroker.Declaration.Basic
import RadioBroker.TypeExpr.Parser

/-!
# Building declarations

Declarations assembled piece by piece. A step that takes written types fails when one of them is
not a type.
-/

namespace RadioBroker

/-- A method from written types. -/
def Method.ofTexts (name returnType : String) (parameters : List String) :
    Except TypeExpr.ParseError Method := do
  let returnType ← TypeExpr.parse returnType
  let parameters ← parameters.mapM TypeExpr.parse
  .ok ⟨name, returnType, parameters, none, {}⟩

namespace Declaration

/-- A type at `path` in a namespace. A dotted path nests the type in the types its front names. -/
def ofPath (kind : TypeKind) (namespaceName path : String) : Declaration where
  name := Text.afterLast '.' path
  fullName := Text.qualify namespaceName path
  namespaceName := namespaceName
  kind := kind
  containingType := (Text.beforeLast? '.' path).map (Text.qualify namespaceName)

/-- Makes the type partial. -/
def asPartial (declaration : Declaration) : Declaration :=
  { declaration with isPartial := true }

/-- Sets who may refer to the type. -/
def withAccessibility (declaration : Declaration) (accessibility : Accessibility) : Declaration :=
  { declaration with accessibility }

/-- Applies one more attribute. -/
def withAttribute (declaration : Declaration) (mark : Attribute) : Declaration :=
  { declaration with attributes := declaration.attributes ++ [mark] }

/-- Applies the marker that asks for a broker. -/
def marked (declaration : Declaration) : Declaration :=
  declaration.withAttribute ⟨markerName, [], [], {}⟩

/-- Applies the marker with a bound on the number of links. -/
def markedWithMaxLinks (declaration : Declaration) (maxLinks : Int) : Declaration :=
  declaration.withAttribute ⟨markerName, [], [("MaxLinks", .integer maxLinks)], {}⟩

/-- Extends one more interface. -/
def extending (declaration : Declaration) (interface : String) :
    Except TypeExpr.ParseError Declaration := do
  let interface ← TypeExpr.parse interface
  .ok { declaration with interfaces := declaration.interfaces ++ [interface] }

/-- Lists one more method. -/
def withMethod (declaration : Declaration) (method : Method) : Declaration :=
  { declaration with methods := declaration.methods ++ [method] }

/-- Moves the type inside another one. -/
def nestedIn (declaration parent : Declaration) : Declaration :=
  { declaration with
    namespaceName := parent.namespaceName
    fullName := parent.fullName ++ "." ++ declaration.localName
    containingType := some parent.fullName }

/-- Turns the type into a definition over type parameters. -/
def openGeneric (declaration : Declaration) (parameters : List String) : Declaration :=
  { declaration with
    fullName := declaration.fullName ++ Text.angled parameters
    generics := .openOver parameters }

/-- Sets where the type is declared. -/
def placedAt (declaration : Declaration) (location : Location) : Declaration :=
  { declaration with location }

end Declaration

end RadioBroker
