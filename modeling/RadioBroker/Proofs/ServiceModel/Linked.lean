import RadioBroker.Proofs.ServiceModel.Preparation

/-!
# Which types are linked

Linking a type links what it needs, directly or through others, and nothing else. A model that is
ready has therefore linked exactly what its services need, whatever the order of its types.
-/

namespace RadioBroker

open Relation

namespace Relations

variable {graph : TypeGraph} {relations : Relations} {id other : TypeId}

/-- Linking a type links only what it needs, directly or through others. -/
theorem needs_of_link (hbefore : other ∈ relations.unlinked)
    (hafter : other ∉ (relations.link graph id).unlinked) : ReflTransGen graph.Needs id other := by
  have hdefinition : ∀ {relations id}, other ∈ relations.unlinked →
      (graph.definitionOf id ≠ id → other ∈ (relations.claim id).unlinked →
        other ∉ (afterDefinition graph relations id).unlinked →
        ReflTransGen graph.Needs (graph.definitionOf id) other) →
      other ∉ (afterDefinition graph relations id).unlinked →
        ReflTransGen graph.Needs id other := by
    intro relations id hbefore ih hafter
    by_cases hother : other = id
    · exact hother ▸ .refl
    have hclaimed : other ∈ (relations.claim id).unlinked :=
      (List.mem_erase_of_ne hother).mpr hbefore
    by_cases hself : graph.definitionOf id = id
    · rw [afterDefinition_of_self hself] at hafter
      exact absurd hclaimed hafter
    · exact .head (Or.inl rfl) (ih hself hclaimed hafter)
  induction relations, id using @link_induction graph with
  | linked => exact absurd hbefore hafter
  | root _ _ _ _ ih => exact hdefinition hbefore ih hafter
  | nested relations id parent _ hparent ih ihParent =>
      by_cases hmiddle : other ∈ (afterDefinition graph relations id).unlinked
      · exact .head (Or.inr hparent) (ihParent hmiddle hafter)
      · exact hdefinition hbefore ih hmiddle

/-- What a linked type needs, directly or through others, is linked. -/
theorem Consistent.linked_of_needs (h : relations.Consistent graph)
    (hid : relations.Linked graph id) (hneeds : ReflTransGen graph.Needs id other) :
    relations.Linked graph other := by
  induction hneeds with
  | refl => exact hid
  | tail _ hstep ih => exact h.needs ih hstep

end Relations

namespace ServiceModel

variable {model : ServiceModel} {ids : List TypeId} {id : TypeId}

/-- A service needs the type, directly or through others, or is it. -/
def NeededByService (model : ServiceModel) (id : TypeId) : Prop :=
  ∃ service, model.isService service = true ∧ ReflTransGen model.graph.Needs service id

/-- Linking services links only what they need. -/
theorem neededByService_of_linkServices (hbefore : id ∈ model.relations.unlinked)
    (hafter : id ∉ (model.linkServices ids).relations.unlinked) : model.NeededByService id := by
  induction ids generalizing model with
  | nil => exact absurd hbefore hafter
  | cons first ids ih =>
      have hstep : model.linkServices (first :: ids) =
        (if model.isService first then model.configureRelation first else model).linkServices ids :=
          rfl
      rw [hstep] at hafter
      split at hafter
      · rename_i hservice
        by_cases hfirst : id ∈ (model.relations.link model.graph first).unlinked
        · exact @ih (model.configureRelation first) hfirst hafter
        · exact ⟨first, hservice, Relations.needs_of_link hbefore hfirst⟩
      · exact ih hbefore hafter

/-- A ready preparation of a graph that was built has linked exactly what the services need. -/
theorem linked_iff_of_prepare {declarations : List Declaration} {graph : TypeGraph}
    (hbuild : TypeGraph.build declarations = .ok graph)
    (hready : ((ofGraph graph).prepare .empty).outcome = .ready) (id : TypeId) :
    ((ofGraph graph).prepare .empty).model.relations.Linked graph id ↔
      ((ofGraph graph).prepare .empty).model.NeededByService id := by
  obtain ⟨hgraph, h, _⟩ := analysed_of_prepare hbuild hready
  constructor
  · intro hlinked
    have hcheck := checkAll_linkedModel ((outcome_prepare_eq_ready_iff graph).mp hready)
    rw [prepare_ofGraph, hcheck] at hlinked
    obtain ⟨service, hservice, hneeds⟩ :=
      neededByService_of_linkServices (TypeGraph.mem_ids.mpr hlinked.1) hlinked.2
    refine ⟨service, ?_, by rwa [hgraph]⟩
    rw [h.isService_eq, hgraph, ← isService_linkedModel, linkedModel_eq]
    exact hservice
  · intro hneeded
    obtain ⟨service, hservice, hneeds⟩ := hneeded
    have hlinked := h.relations.linked_of_needs (h.linked service hservice) hneeds
    rwa [hgraph] at hlinked

end ServiceModel

end RadioBroker
