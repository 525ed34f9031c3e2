import RadioBroker.Diagnostic.Log
import RadioBroker.Naming
import RadioBroker.ServiceModel.Candidate

/-!
# Checking services

A service has to extend the base interface and all types around it have to be partial. Its contract
holds the class name of its broker and the methods to offer, which are collected candidate by
candidate.
-/

namespace RadioBroker

namespace TypeGraph

/-- Whether a type extends the base interface, directly or through others. -/
def extendsBase (graph : TypeGraph) (id : TypeId) : Bool :=
  (graph.allInterfaces id).any fun t => t.isDefinition baseInterfaceName 0

/-- The enclosing types that are not partial, as problems. -/
def parentDiagnostics (graph : TypeGraph) (id : TypeId) : List Diagnostic :=
  (graph.ancestors id).filterMap fun ancestor =>
    match graph.node? ancestor with
    | none => none
    | some node =>
      if node.declaration.isPartial then none
      else some ⟨.notPartialParent node.declaration.fullName, node.declaration.location⟩

end TypeGraph

/-- What has been collected of the candidates for a broker. -/
structure Collector where
  /-- The first candidate of each signature so far. -/
  known : List Candidate := []
  /-- The methods to offer. -/
  methods : List ServiceMethod := []

namespace Collector

/-- Collects a candidate. It is reported if its signature is known or its return type has no
dispatch kind; otherwise it is offered, unless anything fatal was reported before. -/
def collect (collector : Collector) (log : DiagnosticLog) (candidate : Candidate) :
    Collector × DiagnosticLog :=
  match collector.known.find? fun other => other.sameSignature candidate with
  | some first => (collector, log.record (first.duplicateDiagnostic candidate))
  | none =>
    let collector := { collector with known := collector.known ++ [candidate] }
    match candidate.judgeKind with
    | .rejected diagnostic => (collector, log.record diagnostic)
    | .accepted method =>
      if log.isAborted then (collector, log)
      else ({ collector with methods := collector.methods ++ [method] }, log)

/-- Collects candidates one after another. -/
def collectAll (collector : Collector) (log : DiagnosticLog) (candidates : List Candidate) :
    Collector × DiagnosticLog :=
  candidates.foldl (fun state candidate => state.1.collect state.2 candidate) (collector, log)

end Collector

namespace ServiceModel

/-- Checks a type. A service without the base interface is fatal and is not looked at any
further. -/
def check (model : ServiceModel) (log : DiagnosticLog) (id : TypeId) :
    ServiceModel × DiagnosticLog :=
  if id ∈ model.checked then (model, log)
  else
    let model := { model with checked := model.checked ++ [id] }
    match model.graph.node? id with
    | none => (model, log)
    | some node =>
      if !model.isService id then (model, log)
      else if !model.graph.extendsBase id then
        (model, log.record ⟨.missingRadioService, node.declaration.location⟩)
      else
        let log := log.recordAll (model.graph.parentDiagnostics id)
        let (collector, log) := Collector.collectAll {} log (model.graph.candidates id)
        let contract : Contract :=
          { className := Naming.brokerClassName node.declaration.name node.declaration.fullName
            methods := collector.methods }
        ({ model with contracts := model.contracts ++ [(id, contract)] }, log)

end ServiceModel

end RadioBroker
