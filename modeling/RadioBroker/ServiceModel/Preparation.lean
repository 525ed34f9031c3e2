import RadioBroker.ServiceModel.Check
import RadioBroker.ServiceModel.Marker
import RadioBroker.ServiceModel.Relation

/-!
# Preparing a model

The whole analysis, in the order in which a generation needs it: the markers of all types, the
links of all services, the check of all types. What was recorded is delivered behind the links and
behind the check; anything fatal ends the preparation there.
-/

namespace RadioBroker

/-- How a preparation ends. -/
inductive Outcome where
  /-- The model is ready for generation. -/
  | ready
  /-- Something fatal was reported; nothing may be generated. -/
  | aborted
deriving DecidableEq, Repr

/-- A prepared model, and what was delivered meanwhile. -/
structure Prepared where
  model : ServiceModel
  log : DiagnosticLog
  delivered : List Diagnostic
  outcome : Outcome

namespace ServiceModel

/-- Reads the markers of types. -/
def configureAll (model : ServiceModel) (log : DiagnosticLog) (ids : List TypeId) :
    ServiceModel × DiagnosticLog :=
  ids.foldl (fun state id => state.1.configure state.2 id) (model, log)

/-- Links those of the types that are services. -/
def linkServices (model : ServiceModel) (ids : List TypeId) : ServiceModel :=
  ids.foldl (fun model id => if model.isService id then model.configureRelation id else model)
    model

/-- Checks types. -/
def checkAll (model : ServiceModel) (log : DiagnosticLog) (ids : List TypeId) :
    ServiceModel × DiagnosticLog :=
  ids.foldl (fun state id => state.1.check state.2 id) (model, log)

/-- Runs the whole analysis over every type. -/
def prepare (model : ServiceModel) (log : DiagnosticLog) : Prepared :=
  let ids := model.graph.ids
  let (configured, markerLog) := model.configureAll log ids
  let linked := configured.linkServices ids
  let early := markerLog.pending
  if markerLog.isAborted then ⟨linked, markerLog.flush, early, .aborted⟩
  else
    let (checked, checkLog) := linked.checkAll markerLog.flush ids
    let delivered := early ++ checkLog.pending
    ⟨checked, checkLog.flush, delivered, if checkLog.isAborted then .aborted else .ready⟩

end ServiceModel

end RadioBroker
