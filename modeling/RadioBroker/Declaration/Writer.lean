import RadioBroker.Declaration.Basic
import RadioBroker.Json.Basic

/-!
# Writing declarations

The JSON schema of declarations, written. All fields are written, but for a file, an enclosing type
and a declaring type that are not there.
-/

namespace RadioBroker

/-- The members of a schema object with one field that is written only when it is there. -/
def Schema.optionalMember (key : String) : Option String → List (String × Json)
  | none => []
  | some value => [(key, .string value)]

/-- A list of strings. -/
def Schema.strings (values : List String) : Json := .array (values.map .string)

/-- The types, as they are written. -/
def Schema.types (values : List TypeExpr) : Json :=
  Schema.strings (values.map TypeExpr.display)

/-- The word for a kind of type. -/
def TypeKind.word (kind : TypeKind) : String := kind.keyword

/-- The word for an accessibility. -/
def Accessibility.word : Accessibility → String
  | publicAccess => "public"
  | internalAccess => "internal"
  | protectedAccess => "protected"
  | protectedInternal => "protected_internal"
  | privateAccess => "private"
  | privateProtected => "private_protected"

/-- The JSON object of a location. -/
def Location.toJson (place : Location) : Json :=
  .object (Schema.optionalMember "file" place.file ++
    [("start", .integer place.start), ("end", .integer place.stop)])

/-- The JSON object of a generic shape. -/
def Generics.toJson : Generics → Json
  | notGeneric => .object [("kind", .string "not_generic")]
  | openOver parameters =>
    .object [("kind", .string "open"), ("parameters", Schema.strings parameters)]
  | closedOver definition arguments =>
    .object [("kind", .string "closed"), ("definition", .string definition),
      ("arguments", Schema.types arguments)]

/-- The JSON value of an attribute value. -/
def AttributeValue.toJson : AttributeValue → Json
  | bool value => .bool value
  | integer value => .integer value
  | string value => .string value

/-- The JSON object of an attribute. -/
def Attribute.toJson (mark : Attribute) : Json :=
  .object
    [("name", .string mark.name),
     ("arguments", .array (mark.arguments.map AttributeValue.toJson)),
     ("named_arguments", .object (mark.namedArguments.map fun (name, value) =>
       (name, value.toJson))),
     ("location", mark.location.toJson)]

/-- The JSON object of a method. -/
def Method.toJson (method : Method) : Json :=
  .object (
    [("name", .string method.name),
     ("return_type", .string method.returnType.display),
     ("parameters", Schema.types method.parameters)] ++
    Schema.optionalMember "declared_in" method.declaredIn ++
    [("location", method.location.toJson)])

/-- The JSON object of a declaration. -/
def Declaration.toJson (declaration : Declaration) : Json :=
  .object (
    [("name", .string declaration.name),
     ("full_name", .string declaration.fullName),
     ("namespace", .string declaration.namespaceName),
     ("kind", .string declaration.kind.word),
     ("accessibility", .string declaration.accessibility.word),
     ("is_partial", .bool declaration.isPartial)] ++
    Schema.optionalMember "containing_type" declaration.containingType ++
    [("generics", declaration.generics.toJson),
     ("interfaces", Schema.types declaration.interfaces),
     ("attributes", .array (declaration.attributes.map Attribute.toJson)),
     ("methods", .array (declaration.methods.map Method.toJson)),
     ("location", declaration.location.toJson)])

end RadioBroker
