import RadioBroker.Declaration.Closing
import RadioBroker.TypeGraph.Basic

/-!
# Building the graph

`TypeGraph.build` takes the given declarations, adds the closed types that extension lists mention
but nobody declared, and resolves enclosing types and definitions by name. A closed type is added if
its head is the name of a declared generic family; closed types that are added are searched in turn.
Nothing in the declarations bounds that search: it goes on for ever where a definition extends
itself over ever larger arguments. A function has to end, so the search is given a number of types
here that it may go through, and has an error of its own for the case that these are not enough.
-/

namespace RadioBroker

/-- Why declarations do not make a graph. -/
inductive BuildError where
  /-- Two types have one full name. -/
  | duplicateType (name : String)
  /-- The enclosing type of a type is not declared. -/
  | unknownContainingType (name parent : String)
  /-- The definition of a closed type is not declared. -/
  | unknownDefinition (name definition : String)
  /-- A definition cannot be applied. -/
  | notClosable (cause : CloseError)
  /-- More types are needed than there may be. No declaration is at fault: this is where a search
  without a bound would go on, for ever or until there is no room for more types. -/
  | tooManyTypes (limit : Nat)
deriving DecidableEq, Repr

/-- The text of an error. -/
def BuildError.message : BuildError → String
  | duplicateType name => "type '" ++ name ++ "' is declared more than once"
  | unknownContainingType name parent =>
    "type '" ++ name ++ "' is nested in '" ++ parent ++ "', which is not declared"
  | unknownDefinition name definition =>
    "type '" ++ name ++ "' is constructed from '" ++ definition ++ "', which is not declared"
  | notClosable cause => cause.message
  | tooManyTypes limit => "more than " ++ toString limit ++ " types are needed"

namespace TypeGraph

/-- Adds a declaration behind those that are known, unless its name is taken. -/
def addDeclaration (known : List Declaration) (declaration : Declaration) :
    Except BuildError (List Declaration) :=
  if known.any (fun other => other.fullName = declaration.fullName) then
    .error (.duplicateType declaration.fullName)
  else .ok (known ++ [declaration])

/-- Whether a declaration is a definition over that many parameters. -/
def isOpenOver (declaration : Declaration) (arity : Nat) : Bool :=
  declaration.isOpen && declaration.generics.parameters.length = arity

/-- The definition that a mentioned generic type applies: the first one of its family with as many
parameters as there are arguments. Nothing is found where no family has that name. -/
def definitionFor (declared : List Declaration) (t : TypeExpr) :
    Except BuildError (Option Declaration) :=
  match declared.filter fun declaration => declaration.familyName = t.head with
  | [] => .ok none
  | family =>
    match family.find? fun declaration => isOpenOver declaration t.arity with
    | some definition => .ok (some definition)
    | none =>
      .error (.unknownDefinition t.display
        (t.head ++ "<" ++ "".pushn ',' (t.arity - 1) ++ ">"))

/-- Adds the closed type that is mentioned, unless it is known or its family is not declared. -/
def addMentioned (declared known : List Declaration) (t : TypeExpr) :
    Except BuildError (List Declaration) :=
  if known.any (fun other => other.fullName = t.display) then .ok known
  else do
    match ← definitionFor declared t with
    | none => .ok known
    | some definition =>
      let closed ← (definition.close t.arguments).mapError BuildError.notClosable
      addDeclaration known closed

/-- The generic types that the extension list of a declaration mentions. What a definition over
type parameters extends is searched only where it is applied. -/
def mentionedBy (declaration : Declaration) : List TypeExpr :=
  if declaration.isOpen then []
  else declaration.interfaces.filter fun t => 0 < t.arity

/-- Adds what the known declarations from position `next` on mention, and what is added mentions in
turn. At most `limit` declarations are searched. -/
def addAllMentioned (declared : List Declaration) :
    (limit : Nat) → (known : List Declaration) → (next : Nat) →
      Except BuildError (List Declaration)
  | limit, known, next =>
    match known[next]? with
    | none => .ok known
    | some declaration =>
      match limit with
      | 0 => .error (.tooManyTypes next)
      | limit + 1 => do
        let more ← (mentionedBy declaration).foldlM (addMentioned declared) known
        addAllMentioned declared limit more (next + 1)

/-- The position of a name among declarations. -/
def positionOf? (known : List Declaration) (fullName : String) : Option TypeId :=
  known.findIdx? fun declaration => declaration.fullName = fullName

/-- The enclosing type of a declaration. -/
def resolveParent (known : List Declaration) (declaration : Declaration) :
    Except BuildError (Option TypeId) :=
  match declaration.containingType with
  | none => .ok none
  | some parent =>
    match positionOf? known parent with
    | some id => .ok (some id)
    | none => .error (.unknownContainingType declaration.fullName parent)

/-- The definition of the declaration at a position. -/
def resolveDefinition (known : List Declaration) (declaration : Declaration) (position : TypeId) :
    Except BuildError TypeId :=
  match declaration.generics with
  | .closedOver definition _ =>
    match positionOf? known definition with
    | some id => .ok id
    | none => .error (.unknownDefinition declaration.fullName definition)
  | _ => .ok position

/-- The declaration at a position with the types it refers to. -/
def resolve (known : List Declaration) (entry : Declaration × TypeId) :
    Except BuildError TypeNode := do
  let parent ← resolveParent known entry.1
  let definition ← resolveDefinition known entry.1 entry.2
  .ok ⟨entry.1, parent, definition⟩

/-- The graph of the given declarations, of which at most `limit` may be searched for mentioned
types, those that are added included. -/
def buildWithin (limit : Nat) (declarations : List Declaration) :
    Except BuildError TypeGraph := do
  let declared ← declarations.foldlM addDeclaration []
  let known ← addAllMentioned declared limit declared 0
  let nodes ← known.zipIdx.mapM (resolve known)
  .ok ⟨nodes⟩

/-- Positions are words of 32 bits, so no search can go through more types than that. -/
def typeLimit : Nat := 0x100000000

/-- The graph of the given declarations. It is the same for any limit that is not met. -/
def build (declarations : List Declaration) : Except BuildError TypeGraph :=
  buildWithin typeLimit declarations

end TypeGraph

end RadioBroker
