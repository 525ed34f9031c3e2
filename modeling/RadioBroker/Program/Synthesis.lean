import RadioBroker.Program.Outline
import RadioBroker.ServiceModel.Basic

/-!
# From models to programs

Definitions are visited below their namespaces, depth first. A definition that has instances yields
its broker if it is a service and, if it is partial, a scope with what its own children yield and
with the routine of its level. A routine registers the services of a level that are not generic
definitions and calls the routines of the levels below; generic definitions register themselves
when they are first used.
-/

namespace RadioBroker

/-- Why no program can be made. -/
inductive SynthesisError where
  /-- It was asked to stop. -/
  | cancelled
  /-- A service has not been checked. -/
  | unchecked (name : String)
deriving DecidableEq, Repr

/-- The text of an error. -/
def SynthesisError.message : SynthesisError → String
  | cancelled => "generation was cancelled"
  | unchecked name => "radio service '" ++ name ++ "' was never checked"

namespace ServiceModel

/-- The full name of the broker class of a definition, without type arguments. -/
def brokerPath (model : ServiceModel) (definition : TypeId) : Except SynthesisError String :=
  let className := model.className definition
  if className = "" then .error (.unchecked (model.graph.fullName definition))
  else
    let scope := match model.graph.parent? definition with
      | some parent => model.graph.fullName parent
      | none => model.namespaceOf definition
    .ok (Text.qualify scope className)

/-- The generic shape of a type. -/
def genericsOf (model : ServiceModel) (id : TypeId) : Generics :=
  ((model.graph.node? id).map fun node => node.declaration.generics).getD .notGeneric

/-- What stands behind the broker of a type that is no generic definition. -/
def brokerArguments (model : ServiceModel) (id : TypeId) : String :=
  match model.genericsOf id with
  | .closedOver _ arguments => Text.angled (arguments.map TypeExpr.display)
  | _ => ""

/-- The registration of a service that is no generic definition. -/
def registration (model : ServiceModel) (id : TypeId) : Except SynthesisError Registration := do
  let path ← model.brokerPath (model.graph.definitionOf id)
  .ok ⟨model.graph.fullName id, path ++ model.brokerArguments id, model.maxLinks id⟩

/-- The registration of a generic definition over its own parameters. -/
def selfRegistration (model : ServiceModel) (id : TypeId) :
    Except SynthesisError (Option Registration) :=
  match model.genericsOf id with
  | .openOver parameters => do
    let path ← model.brokerPath id
    .ok (some ⟨model.graph.fullName id, path ++ Text.angled parameters, model.maxLinks id⟩)
  | _ => .ok none

/-- The services that one level of definitions registers at once. -/
def registeredAt (model : ServiceModel) (level : List TypeId) : List TypeId :=
  (level.flatMap model.relations.instancesOf).filter fun id =>
    model.isService id && !(model.genericsOf id).isOpen

/-- The routine of a level, when the types in `withRoutine` have got routines of their own. -/
def levelRoutine (model : ServiceModel) (withRoutine level : List TypeId) :
    Except SynthesisError Routine := do
  let registrations ← (model.registeredAt level).mapM model.registration
  .ok ⟨registrations, (level.filter (· ∈ withRoutine)).map model.graph.fullName⟩

/-- The routine of the level below a type. Generic definitions get none, and neither do levels at
which there is nothing to do. -/
def nestedRoutine (model : ServiceModel) (withRoutine : List TypeId) (parent : TypeId)
    (level : List TypeId) : Except SynthesisError (Option Routine) :=
  if (model.genericsOf parent).isOpen || level.isEmpty then .ok none
  else do
    let routine ← model.levelRoutine withRoutine level
    .ok (if routine.isEmpty then none else some routine)

/-- A method of a broker class; a method that is not supported has none. -/
def brokerMethod? (method : ServiceMethod) : Option BrokerMethod :=
  method.dispatchBody?.map fun body =>
    ⟨method.name, method.interface, method.returnType, method.parameters, method.kind, body⟩

/-- The broker class of a service. -/
def brokerClass (model : ServiceModel) (id : TypeId) (declaration : Declaration) :
    Except SynthesisError BrokerClass :=
  if model.className id = "" then .error (.unchecked declaration.fullName)
  else do
    let selfRegistration ← model.selfRegistration id
    .ok
      { name := model.className id
        typeParameters := declaration.generics.parameters
        nested := (model.graph.parent? id).isSome
        interface := declaration.localName
        methods := (model.methods id).filterMap brokerMethod?
        selfRegistration }

/-- Pieces, and the types that have got a routine by now. -/
structure Yield where
  pieces : List Piece := []
  withRoutine : List TypeId

/-- The broker of a definition, if it is a service. -/
def ownPieces (model : ServiceModel) (id : TypeId) (declaration : Declaration) :
    Except SynthesisError (List Piece) :=
  if model.isService id then do
    let broker ← model.brokerClass id declaration
    .ok [.broker id broker]
  else .ok []

/-- Adds to a yield what one more definition yields. -/
def Yield.extend (yielded : Yield) (next : List TypeId → Except SynthesisError Yield) :
    Except SynthesisError Yield := do
  let more ← next yielded.withRoutine
  .ok ⟨yielded.pieces ++ more.pieces, more.withRoutine⟩

/-- What a definition yields, down to `depth` levels of nesting. -/
def piecesWithin (model : ServiceModel) :
    (depth : Nat) → (withRoutine : List TypeId) → (id : TypeId) → Except SynthesisError Yield
  | 0, withRoutine, _ => .ok ⟨[], withRoutine⟩
  | depth + 1, withRoutine, id =>
    match model.graph.node? id with
    | none => .ok ⟨[], withRoutine⟩
    | some node =>
      if (model.relations.instancesOf id).isEmpty then .ok ⟨[], withRoutine⟩
      else do
        let own ← model.ownPieces id node.declaration
        if !node.declaration.isPartial then .ok ⟨own, withRoutine⟩
        else do
          let children := model.relations.childrenOf id
          let nested ← children.foldlM (fun yielded child =>
            Yield.extend yielded fun withRoutine => model.piecesWithin depth withRoutine child)
            ⟨[], withRoutine⟩
          let initializer ← model.nestedRoutine nested.withRoutine id children
          let scope : Piece := .scope id node.declaration nested.pieces initializer
          let withRoutine :=
            if initializer.isSome then id :: nested.withRoutine else nested.withRoutine
          .ok ⟨if nested.pieces.isEmpty && initializer.isNone then own else own ++ [scope],
            withRoutine⟩

/-- What a definition yields. No type is nested deeper than there are types. -/
def piecesOf (model : ServiceModel) (withRoutine : List TypeId) (id : TypeId) :
    Except SynthesisError Yield :=
  model.piecesWithin model.graph.size withRoutine id

/-- What the roots of a namespace yield. -/
def namespacePieces (model : ServiceModel) (withRoutine roots : List TypeId) :
    Except SynthesisError Yield :=
  roots.foldlM (fun yielded root =>
    yielded.extend fun withRoutine => model.piecesOf withRoutine root) ⟨[], withRoutine⟩

/-- What namespaces yield, without those that have no content, and the types that have got a
routine by then. -/
def unitsOf (model : ServiceModel) (withRoutine : List TypeId) :
    List (String × List TypeId) →
      Except SynthesisError (List (String × List Piece) × List TypeId)
  | [] => .ok ([], withRoutine)
  | (name, roots) :: rest => do
    let yielded ← model.namespacePieces withRoutine roots
    let (units, withRoutine) ← model.unitsOf yielded.withRoutine rest
    .ok (if yielded.pieces.isEmpty then units else (name, yielded.pieces) :: units, withRoutine)

/-- All roots, namespace by namespace. -/
def rootLevel (model : ServiceModel) : List TypeId :=
  model.namespaces.flatMap Prod.snd

/-- The outline of the program of a model. -/
def outline (model : ServiceModel) : Except SynthesisError Outline := do
  let (units, withRoutine) ← model.unitsOf [] model.namespaces
  let root ← model.levelRoutine withRoutine model.rootLevel
  .ok ⟨units, root⟩

/-- The program of a model. It is asked before each root whether the synthesis is `cancelled`, and
the answer is the same every time: the first root decides, and a model without roots is never
asked. -/
def synthesize (model : ServiceModel) (hook : ModuleHook) (cancelled : Bool) :
    Except SynthesisError Program :=
  if cancelled && !model.namespaces.isEmpty then .error .cancelled
  else do
    let outline ← model.outline
    .ok (outline.program hook)

end ServiceModel

end RadioBroker
