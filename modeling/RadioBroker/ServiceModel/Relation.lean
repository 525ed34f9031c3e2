import RadioBroker.ServiceModel.Basic

/-!
# Linking types

Linking a type links its definition, then the type that encloses the definition, and records the
definition below its enclosing type (or as a root) and the type as an instance of the definition.
Every type is linked once. That also ends the recursion where names form a circle: what is linked
already is passed over.
-/

namespace RadioBroker

namespace Relations

/-- Relations of which no more types are unlinked than in `relations`. -/
abbrev Advanced (relations : Relations) :=
  { next : Relations // next.unlinked.length ≤ relations.unlinked.length }

/-- Records a definition that no type encloses. -/
def addRoot (relations : Relations) (definition : TypeId) : Relations :=
  { relations with roots := insertNew definition relations.roots }

/-- Records a definition below the type that encloses it. -/
def addChild (relations : Relations) (parent definition : TypeId) : Relations :=
  { relations with children := insertNew (parent, definition) relations.children }

/-- Records a type that applies a definition, or is it. -/
def addInstance (relations : Relations) (definition id : TypeId) : Relations :=
  { relations with instances := insertNew (definition, id) relations.instances }

/-- Takes a type out of those that are unlinked. -/
def claim (relations : Relations) (id : TypeId) : Relations :=
  { relations with unlinked := relations.unlinked.erase id }

theorem length_claim_lt {relations : Relations} {id : TypeId} (hmem : id ∈ relations.unlinked) :
    (relations.claim id).unlinked.length < relations.unlinked.length := by
  have hpos := List.length_pos_of_mem hmem
  simp only [claim, List.length_erase_of_mem hmem]
  omega

/-- Links a type, and says that this leaves no more types unlinked. -/
def advance (graph : TypeGraph) (relations : Relations) (id : TypeId) : Advanced relations :=
  if hmem : id ∈ relations.unlinked then
    have hclaim := length_claim_lt hmem
    let definition := graph.definitionOf id
    let ⟨afterDefinition, hdefinition⟩ : Advanced (relations.claim id) :=
      if definition = id then ⟨relations.claim id, Nat.le_refl _⟩
      else advance graph (relations.claim id) definition
    match graph.parent? definition with
    | none =>
      ⟨(afterDefinition.addRoot definition).addInstance definition id,
        Nat.le_trans hdefinition (Nat.le_of_lt hclaim)⟩
    | some parent =>
      let ⟨afterParent, hparent⟩ := advance graph afterDefinition parent
      ⟨(afterParent.addChild parent definition).addInstance definition id,
        Nat.le_trans hparent (Nat.le_trans hdefinition (Nat.le_of_lt hclaim))⟩
  else ⟨relations, Nat.le_refl _⟩
termination_by relations.unlinked.length
decreasing_by
  · exact hclaim
  · exact Nat.lt_of_le_of_lt hdefinition hclaim

/-- Links a type. -/
def link (relations : Relations) (graph : TypeGraph) (id : TypeId) : Relations :=
  (advance graph relations id).1

end Relations

/-- Links a type of the model. -/
def ServiceModel.configureRelation (model : ServiceModel) (id : TypeId) : ServiceModel :=
  { model with relations := model.relations.link model.graph id }

end RadioBroker
