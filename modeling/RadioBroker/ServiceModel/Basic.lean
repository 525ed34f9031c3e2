import RadioBroker.Dispatch.Body
import RadioBroker.TypeGraph.Basic

/-!
# The service model

A graph of types together with what its analysis has found out so far: which types are services,
how the types concerned are related to each other, and what the broker of each service has to offer.
Each part of the analysis is done once per type and remembers the types it is done for.
-/

namespace RadioBroker

/-- The relations that generation goes along. They are recorded type by type; a relation between
two types is recorded once. -/
structure Relations where
  /-- The types that have not been linked yet. -/
  unlinked : List TypeId
  /-- Definitions that no type encloses. -/
  roots : List TypeId := []
  /-- Enclosing types and the definitions in them. -/
  children : List (TypeId × TypeId) := []
  /-- Definitions and the types that apply them, or are them. -/
  instances : List (TypeId × TypeId) := []
deriving DecidableEq, Repr

/-- What the broker of a service has to offer. -/
structure Contract where
  className : String
  methods : List ServiceMethod
deriving DecidableEq, Repr

/-- A graph and what is known about its services. -/
structure ServiceModel where
  graph : TypeGraph
  /-- The types whose marker has been read. -/
  configured : List TypeId := []
  /-- The services, each with its bound on links. -/
  services : List (TypeId × Int) := []
  relations : Relations
  /-- The types that have been checked. -/
  checked : List TypeId := []
  /-- The services that have passed the check. -/
  contracts : List (TypeId × Contract) := []
deriving DecidableEq, Repr

/-- The bound on links of a service that sets none. -/
def unboundedLinks : Int := 0x7FFFFFFF

namespace Relations

/-- No type of the graph is linked. -/
def initial (graph : TypeGraph) : Relations := { unlinked := graph.ids }

/-- The second components that belong to `id`, in the order in which they were recorded. -/
def related (pairs : List (TypeId × TypeId)) (id : TypeId) : List TypeId :=
  (pairs.filter fun pair => pair.1 = id).map Prod.snd

/-- The definitions that a type encloses. -/
def childrenOf (relations : Relations) (id : TypeId) : List TypeId :=
  related relations.children id

/-- The types that apply a definition, or are it. -/
def instancesOf (relations : Relations) (id : TypeId) : List TypeId :=
  related relations.instances id

/-- Adds an entry at the end of a list that does not hold it. -/
def insertNew {α : Type} [DecidableEq α] (entry : α) (entries : List α) : List α :=
  if entry ∈ entries then entries else entries ++ [entry]

end Relations

namespace ServiceModel

/-- The model of a graph before any analysis. -/
def ofGraph (graph : TypeGraph) : ServiceModel :=
  { graph, relations := Relations.initial graph }

/-- Whether a type is known to be a service. -/
def isService (model : ServiceModel) (id : TypeId) : Bool :=
  (model.services.lookup id).isSome

/-- The bound on links of a type. -/
def maxLinks (model : ServiceModel) (id : TypeId) : Int :=
  (model.services.lookup id).getD unboundedLinks

/-- Whether a type has been linked. -/
def isLinked (model : ServiceModel) (id : TypeId) : Bool :=
  decide (id < model.graph.size) && !decide (id ∈ model.relations.unlinked)

/-- The methods that the broker of a type has to offer. -/
def methods (model : ServiceModel) (id : TypeId) : List ServiceMethod :=
  ((model.contracts.lookup id).map Contract.methods).getD []

/-- The class name of the broker of a type; it is empty before the check. -/
def className (model : ServiceModel) (id : TypeId) : String :=
  ((model.contracts.lookup id).map Contract.className).getD ""

/-- The namespace of a type. -/
def namespaceOf (model : ServiceModel) (id : TypeId) : String :=
  ((model.graph.node? id).map fun node => node.declaration.namespaceName).getD ""

/-- The namespaces of the roots, in the order of their first root, each with its roots. The table is
not kept beside the roots but read off them; it grows entry by entry as roots are added. -/
def namespaces (model : ServiceModel) : List (String × List TypeId) :=
  (model.relations.roots.map model.namespaceOf).eraseDups.map fun name =>
    (name, model.relations.roots.filter fun root => model.namespaceOf root = name)

end ServiceModel

end RadioBroker
