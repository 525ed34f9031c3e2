import RadioBroker.Dispatch.Kind
import RadioBroker.Dispatch.Statement
import RadioBroker.Location

/-!
# Dispatch bodies

The body of a broker method by its dispatch kind. All bodies take one snapshot and go once over its
entries; the kinds with answers call no more subscribers than the hint says.
-/

namespace RadioBroker

/-- A method a broker has to offer. -/
structure ServiceMethod where
  name : String
  parameters : List TypeExpr
  returnType : TypeExpr
  kind : DispatchKind
  /-- The type of single values, for the kinds that have one. -/
  result : Option TypeExpr
  /-- The interface the broker implements the method for, as it is written there. -/
  interface : String
  location : Location
deriving DecidableEq, Inhabited, Repr

namespace ServiceMethod

/-- The call that forwards every parameter. -/
def call (method : ServiceMethod) : Call :=
  ⟨method.name, method.parameters.length⟩

/-- Keeps the pending operations of the live entries, up to the hint. -/
def gatherPending (method : ServiceMethod) : List Statement :=
  [.takeSnapshot,
   .declarePending method.returnType,
   .forEachLive [.breakIfFull .stored, .collectPending method.call]]

/-- The body of the broker method; a kind that is not supported has none. -/
def dispatchBody? (method : ServiceMethod) : Option (List Statement) :=
  match method.kind with
  | .other => none
  | .void => some [.takeSnapshot, .forEachLive [.invoke method.call]]
  | .singleResult =>
    method.result.map fun result =>
      [.takeSnapshot,
       .declareResults result,
       .forEachLive [.breakIfFull .invoked, .countInvocation, .collectResult method.call],
       .byCount [.finish (some .default)] [.finish (some .wrapFirst)]
         [.shrinkToCount .results, .finish (some .wrapResults)]]
  | .asyncVoid =>
    some (method.gatherPending ++
      [.byCount [.finish none] [.awaitFirst] [.shrinkToCount .pending, .awaitAll]])
  | .asyncSingleResult =>
    some (method.gatherPending ++
      [.byCount [.finish (some .default)] [.finish (some .awaitFirst)]
        [.shrinkToCount .pending, .finish (some .awaitAllUnwrapped)]])

end ServiceMethod

end RadioBroker
