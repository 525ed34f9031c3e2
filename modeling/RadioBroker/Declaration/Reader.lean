import RadioBroker.Declaration.Basic
import RadioBroker.Json.Reader
import RadioBroker.TypeExpr.Parser

/-!
# Reading declarations

The JSON schema of declarations, read. A schema object is a JSON object in which unknown keys are
ignored and no known key is repeated; types, attributes and methods may also be written as an array
of their fields in order, of which the last ones may be left off. Declarations stand in an array,
or in an object under `types`.
-/

namespace RadioBroker

namespace Schema

/-- The values of the fields called `keys` in a JSON object. -/
def namedFields? (keys : List String) : Json → Option (List (Option Json))
  | .object members => keys.mapM fun key => Json.single? key members
  | _ => none

/-- The values of the fields called `keys`, in a JSON object or in an array in their order. -/
def fields? (keys : List String) : Json → Option (List (Option Json))
  | .array elements =>
    if elements.length ≤ keys.length then
      some (elements.map some ++ List.replicate (keys.length - elements.length) none)
    else none
  | value => namedFields? keys value

/-- A field that is written. -/
def required {α : Type} (read : Json → Option α) (field : Option Json) : Option α :=
  field.bind read

/-- A field that stands for `default` when it is not written. -/
def defaulting {α : Type} (default : α) (read : Json → Option α) : Option Json → Option α
  | none => some default
  | some value => read value

/-- A value that may be null. -/
def nullable {α : Type} (read : Json → Option α) : Json → Option (Option α)
  | .null => some none
  | value => (read value).map some

/-- An array of values. -/
def listOf {α : Type} (read : Json → Option α) (value : Json) : Option (List α) :=
  value.asArray?.bind fun elements => elements.mapM read

/-- One of some words, alone or as the only key of an object whose value is null. -/
def word {α : Type} (words : List (String × α)) : Json → Option α
  | .string written => words.lookup written
  | .object [(written, .null)] => words.lookup written
  | _ => none

/-- An integer from `low` up to `high`. -/
def integerBetween (low high : Int) : Json → Option Int
  | .integer value => if low ≤ value ∧ value ≤ high then some value else none
  | _ => none

/-- A written type. -/
def typeExpr (value : Json) : Option TypeExpr :=
  value.asString?.bind fun text => (TypeExpr.parse text).toOption

/-- The words for the kinds of types. -/
def typeKinds : List (String × TypeKind) :=
  [("interface", .interface), ("class", .classType), ("struct", .structType), ("record", .record)]

/-- The words for accessibilities. -/
def accessibilities : List (String × Accessibility) :=
  [("public", .publicAccess), ("internal", .internalAccess), ("protected", .protectedAccess),
   ("protected_internal", .protectedInternal), ("private", .privateAccess),
   ("private_protected", .privateProtected)]

/-- The generic shapes. -/
inductive Shape where
  | notGeneric
  | opened
  | closed
deriving DecidableEq

/-- The words for generic shapes. -/
def shapes : List (String × Shape) :=
  [("not_generic", .notGeneric), ("open", .opened), ("closed", .closed)]

/-- A generic shape, by word or by position in `shapes`. -/
def shape : Json → Option Shape
  | .string written => shapes.lookup written
  | .integer position =>
    if 0 ≤ position then (shapes.map Prod.snd)[position.toNat]? else none
  | _ => none

/-- The fields of a generic shape. -/
def shapeKeys : Shape → List String
  | .notGeneric => []
  | .opened => ["parameters"]
  | .closed => ["definition", "arguments"]

/-- A byte offset. -/
def offset (value : Json) : Option Nat :=
  (integerBetween 0 (Location.offsetLimit - 1) value).map Int.toNat

/-- A value passed to an attribute. -/
def attributeValue : Json → Option AttributeValue
  | .bool value => some (.bool value)
  | .string value => some (.string value)
  | value =>
    (integerBetween (-0x8000000000000000) 0x7FFFFFFFFFFFFFFF value).map .integer

/-- Named arguments; of a name that is repeated the last value is kept, at its first place. -/
def namedValues : Json → Option (List (String × AttributeValue))
  | .object members =>
    members.foldlM (fun entries member => do
      some (Attribute.setNamed member.1 (← attributeValue member.2) entries)) []
  | _ => none

end Schema

open Schema

/-- The location a JSON object describes. -/
def Location.ofJson? (value : Json) : Option Location := do
  let [file, start, stop] ← namedFields? ["file", "start", "end"] value | none
  some
    { file := ← defaulting none (nullable Json.asString?) file
      start := ← defaulting 0 offset start
      stop := ← defaulting 0 offset stop }

/-- The generic shape of these fields. -/
def Generics.ofFields? : Schema.Shape → List (Option Json) → Option Generics
  | .notGeneric, [] => some .notGeneric
  | .opened, [parameters] => do
    some (.openOver (← required (listOf Json.asString?) parameters))
  | .closed, [definition, arguments] => do
    some (.closedOver (← required Json.asString? definition)
      (← required (listOf typeExpr) arguments))
  | _, _ => none

/-- The generic shape a JSON value describes: an object with a `kind`, or an array of a kind and
all its fields. -/
def Generics.ofJson? : Json → Option Generics
  | .object members => do
    let shape ← required shape (← Json.single? "kind" members)
    Generics.ofFields? shape (← namedFields? (shapeKeys shape) (.object members))
  | .array (kind :: elements) => do
    Generics.ofFields? (← shape kind) (elements.map some)
  | _ => none

/-- The attribute a JSON value describes. -/
def Attribute.ofJson? (value : Json) : Option Attribute := do
  let [name, arguments, named, location] ←
    fields? ["name", "arguments", "named_arguments", "location"] value | none
  some
    { name := ← required Json.asString? name
      arguments := ← defaulting [] (listOf attributeValue) arguments
      namedArguments := ← defaulting [] namedValues named
      location := ← defaulting {} Location.ofJson? location }

/-- The method a JSON value describes. -/
def Method.ofJson? (value : Json) : Option Method := do
  let [name, returnType, parameters, declaredIn, location] ←
    fields? ["name", "return_type", "parameters", "declared_in", "location"] value | none
  some
    { name := ← required Json.asString? name
      returnType := ← required typeExpr returnType
      parameters := ← defaulting [] (listOf typeExpr) parameters
      declaredIn := ← defaulting none (nullable Json.asString?) declaredIn
      location := ← defaulting {} Location.ofJson? location }

namespace Declaration

/-- The fields of a declaration. -/
def keys : List String :=
  ["name", "full_name", "namespace", "kind", "accessibility", "is_partial", "containing_type",
   "generics", "interfaces", "attributes", "methods", "location"]

/-- The declaration a JSON value describes. -/
def ofJson? (value : Json) : Option Declaration := do
  let [name, fullName, namespaceName, kind, accessibility, isPartial, containingType, generics,
    interfaces, attributes, methods, location] ← fields? keys value | none
  some
    { name := ← required Json.asString? name
      fullName := ← required Json.asString? fullName
      namespaceName := ← defaulting "" Json.asString? namespaceName
      kind := ← required (word typeKinds) kind
      accessibility := ← defaulting .publicAccess (word accessibilities) accessibility
      isPartial := ← defaulting false Json.asBool? isPartial
      containingType := ← defaulting none (nullable Json.asString?) containingType
      generics := ← defaulting .notGeneric Generics.ofJson? generics
      interfaces := ← defaulting [] (listOf typeExpr) interfaces
      attributes := ← defaulting [] (listOf Attribute.ofJson?) attributes
      methods := ← defaulting [] (listOf Method.ofJson?) methods
      location := ← defaulting {} Location.ofJson? location }

/-- The declarations a JSON value lists. -/
def listOfJson? : Json → Option (List Declaration)
  | .array elements => elements.mapM ofJson?
  | .object members => do required (listOf ofJson?) (← Json.single? "types" members)
  | _ => none

/-- The declarations a text lists. A text that starts with a value of another shape is a mismatch,
whatever follows that value. -/
def parseAll (text : String) : Except Json.ReadError (List Declaration) := do
  let (value, rest) ← Json.parseFront text
  match listOfJson? value with
  | none => .error .mismatch
  | some declarations => do
    Json.expectEnd rest
    .ok declarations

end Declaration

end RadioBroker
