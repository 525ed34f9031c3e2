import RadioBroker.Diagnostic.Log
import RadioBroker.ServiceModel.Basic

/-!
# Markers

A type is a service if it carries the marker attribute; a closed type without a marker of its own
takes that of its definition. The marker may bound the number of links.
-/

namespace RadioBroker

/-- The marker that governs a type. -/
def TypeGraph.marker? (graph : TypeGraph) (id : TypeId) : Option Attribute := do
  let node ← graph.node? id
  match node.declaration.attribute? markerName with
  | some mark => some mark
  | none =>
    if node.declaration.generics.isClosed then do
      let definition ← graph.node? node.definition
      definition.declaration.attribute? markerName
    else none

/-- The bound on links that a marker sets: a positive integer of 32 bits. -/
def Attribute.linkBound (mark : Attribute) : Except Problem Int :=
  match mark.named? "MaxLinks" with
  | none => .ok unboundedLinks
  | some value =>
    match value with
    | .integer bound =>
      if 0 < bound ∧ bound ≤ unboundedLinks then .ok bound
      else .error (.invalidMaxLinks value.display)
    | _ => .error (.invalidMaxLinks value.display)

namespace ServiceModel

/-- Reads the marker of a type. A bound that is none leaves the service unbounded. -/
def configure (model : ServiceModel) (log : DiagnosticLog) (id : TypeId) :
    ServiceModel × DiagnosticLog :=
  if id ∈ model.configured then (model, log)
  else
    let model := { model with configured := model.configured ++ [id] }
    match model.graph.marker? id with
    | none => (model, log)
    | some mark =>
      match mark.linkBound with
      | .ok bound => ({ model with services := model.services ++ [(id, bound)] }, log)
      | .error problem =>
        ({ model with services := model.services ++ [(id, unboundedLinks)] },
          log.record ⟨problem, mark.location⟩)

end ServiceModel

end RadioBroker
