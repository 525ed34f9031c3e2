import RadioBroker.Proofs.ServiceModel.Inclusion
import RadioBroker.Program.Synthesis

/-!
# What is generated for twins

A type of an included model and its twin in the other model are registered alike, and their brokers
have one class.
-/

namespace RadioBroker.ServiceModel

open TypeGraph

variable {model other : ServiceModel} {id twin : TypeId}

/-- Twins have one generic shape. -/
theorem genericsOf_eq (htwins : Twins model.graph other.graph id twin) :
    model.genericsOf id = other.genericsOf twin := by
  obtain ⟨node, twinNode, hnode, htwin, heq⟩ := htwins
  simp [genericsOf, hnode, htwin, heq]

namespace Included

/-- The brokers of twins have one full name. -/
theorem brokerPath_eq (h : Included model other)
    (htwins : Twins model.graph other.graph id twin) :
    model.brokerPath id = other.brokerPath twin := by
  unfold brokerPath
  rw [h.className_eq htwins, namespaceOf_eq htwins, htwins.fullName_eq]
  cases hparent : model.graph.parent? id with
  | none => rw [h.graph.parent?_eq_none htwins hparent]
  | some outer =>
      obtain ⟨outerTwin, htwinParent, houter⟩ := h.graph.exists_parent htwins hparent
      simp only [htwinParent, houter.fullName_eq]

/-- Twins are registered alike. -/
theorem registration_eq (h : Included model other)
    (htwins : Twins model.graph other.graph id twin) :
    model.registration id = other.registration twin := by
  rw [registration, registration, h.brokerPath_eq (h.graph.definitionOf htwins),
    htwins.fullName_eq, h.maxLinks_eq htwins, brokerArguments, brokerArguments,
    genericsOf_eq htwins]

/-- Generic definitions that are twins register themselves alike. -/
theorem selfRegistration_eq (h : Included model other)
    (htwins : Twins model.graph other.graph id twin) :
    model.selfRegistration id = other.selfRegistration twin := by
  rw [selfRegistration, selfRegistration, genericsOf_eq htwins, h.brokerPath_eq htwins,
    htwins.fullName_eq, h.maxLinks_eq htwins]

/-- The brokers of twins have one class. -/
theorem brokerClass_eq (h : Included model other)
    (htwins : Twins model.graph other.graph id twin) (declaration : Declaration) :
    model.brokerClass id declaration = other.brokerClass twin declaration := by
  have hnested : (model.graph.parent? id).isSome = (other.graph.parent? twin).isSome := by
    have hnames := congrArg Option.isSome (h.graph.parent?_fullName_eq htwins)
    rwa [Option.isSome_map, Option.isSome_map] at hnames
  rw [brokerClass, brokerClass, h.className_eq htwins, h.methods_eq htwins,
    h.selfRegistration_eq htwins, hnested]

end Included

end RadioBroker.ServiceModel
