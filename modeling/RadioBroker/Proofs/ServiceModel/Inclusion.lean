import RadioBroker.Proofs.ServiceModel.Preparation
import RadioBroker.Proofs.TypeGraph.Inclusion

/-!
# Models within models

What a preparation finds out about a type depends on its declaration, on the types around it and on
its interfaces. A type of a graph that is included in another one has these in common with its twin,
so both get the same marker and the same contract, and two ready models of such graphs know the same
about them.
-/

namespace RadioBroker

namespace TypeGraph

variable {graph other : TypeGraph} {id twin : TypeId} {node twinNode : TypeNode} {t : TypeExpr}

namespace Inclusion

/-- One marker governs twins. -/
theorem marker?_eq (h : Inclusion graph other) (htwins : Twins graph other id twin) :
    graph.marker? id = other.marker? twin := by
  obtain ⟨definition, definitionTwin, hdefinition, hdefinitionTwin, hsame⟩ := h.definitionOf htwins
  obtain ⟨node, twinNode, hnode, htwin, heq⟩ := htwins
  simp only [TypeGraph.definitionOf, hnode, htwin, Option.map_some, Option.getD_some]
    at hdefinition hdefinitionTwin
  simp [marker?, hnode, htwin, hdefinition, hdefinitionTwin, heq, hsame]

/-- The markers of twins set one bound on links. -/
theorem serviceBound?_eq (h : Inclusion graph other) (htwins : Twins graph other id twin) :
    graph.serviceBound? id = other.serviceBound? twin := by
  rw [serviceBound?, serviceBound?, h.marker?_eq htwins]

/-- The methods that a type declares itself are those of its twin. -/
theorem declaredCandidates_eq (h : Inclusion graph other) (hnode : graph.node? id = some node)
    (htwin : other.node? twin = some twinNode) (heq : node.declaration = twinNode.declaration)
    (interface : String) :
    graph.declaredCandidates node interface = other.declaredCandidates twinNode interface := by
  rw [declaredCandidates, declaredCandidates, h.named.definition hnode,
    h.otherNamed.definition htwin, heq]

/-- A mentioned type declares the same methods in both graphs. -/
theorem inheritedCandidates_eq (h : Inclusion graph other) (ht : t ∈ graph.mentioned) :
    graph.inheritedCandidates t = other.inheritedCandidates t := by
  unfold inheritedCandidates
  cases hfound : graph.declared? t.display with
  | none => rw [h.declared?_eq_none ht hfound]
  | some node =>
      obtain ⟨twinNode, hother, _, _, hnode, htwin, heq⟩ := h.exists_declared hfound
      rw [hother]
      exact h.declaredCandidates_eq hnode htwin heq _

/-- The brokers of twins have the same candidates. -/
theorem candidates_eq (h : Inclusion graph other) (htwins : Twins graph other id twin) :
    graph.candidates id = other.candidates twin := by
  have hinterfaces := h.allInterfaces_eq htwins
  obtain ⟨node, twinNode, hnode, htwin, heq⟩ := htwins
  have hinherited : (graph.allInterfaces id).flatMap graph.inheritedCandidates =
      (graph.allInterfaces id).flatMap other.inheritedCandidates :=
    List.flatMap_congr fun t ht =>
      h.inheritedCandidates_eq (cases_of_mem_allInterfaces hnode ht).1
  simp only [candidates, hnode, htwin]
  rw [h.declaredCandidates_eq hnode htwin heq, hinherited, hinterfaces, heq]

/-- Twins get the same contract. -/
theorem contract_eq (h : Inclusion graph other) (htwins : Twins graph other id twin) :
    graph.contract id = other.contract twin := by
  have hmethods : graph.serviceMethods id = other.serviceMethods twin := by
    rw [serviceMethods, serviceMethods, verdicts, verdicts, h.candidates_eq htwins]
  obtain ⟨node, twinNode, hnode, htwin, heq⟩ := htwins
  simp [contract, hmethods, hnode, htwin, heq]

end Inclusion

end TypeGraph

namespace ServiceModel

open TypeGraph

variable {model other : ServiceModel} {id twin : TypeId}

/-- Two analysed models, of which the graph of one is included in that of the other. -/
structure Included (model other : ServiceModel) : Prop where
  graph : Inclusion model.graph other.graph
  analysed : model.Analysed
  otherAnalysed : other.Analysed

namespace Included

/-- Twins are entered as services alike. -/
theorem services_eq (h : Included model other) (htwins : Twins model.graph other.graph id twin) :
    model.services.lookup id = other.services.lookup twin := by
  rw [h.analysed.services, h.otherAnalysed.services, h.graph.serviceBound?_eq htwins]

/-- Twins are services or not alike. -/
theorem isService_eq (h : Included model other) (htwins : Twins model.graph other.graph id twin) :
    model.isService id = other.isService twin := by
  rw [isService, isService, h.services_eq htwins]

/-- Twins have got contracts alike. -/
theorem contracts_eq (h : Included model other) (htwins : Twins model.graph other.graph id twin) :
    model.contracts.lookup id = other.contracts.lookup twin := by
  rw [h.analysed.contracts, h.otherAnalysed.contracts, contract?, contract?,
    h.isService_eq htwins, h.graph.contract_eq htwins]

/-- Twins have brokers of one class name. -/
theorem className_eq (h : Included model other) (htwins : Twins model.graph other.graph id twin) :
    model.className id = other.className twin := by
  rw [className, className, h.contracts_eq htwins]

/-- Twins have one bound on links. -/
theorem maxLinks_eq (h : Included model other) (htwins : Twins model.graph other.graph id twin) :
    model.maxLinks id = other.maxLinks twin := by
  rw [maxLinks, maxLinks, h.services_eq htwins]

/-- Twins have brokers with the same methods. -/
theorem methods_eq (h : Included model other) (htwins : Twins model.graph other.graph id twin) :
    model.methods id = other.methods twin := by
  rw [methods, methods, h.contracts_eq htwins]

end Included

/-- Twins are in one namespace. -/
theorem namespaceOf_eq (htwins : Twins model.graph other.graph id twin) :
    model.namespaceOf id = other.namespaceOf twin := by
  obtain ⟨node, twinNode, hnode, htwin, heq⟩ := htwins
  simp [namespaceOf, hnode, htwin, heq]

end ServiceModel

end RadioBroker
