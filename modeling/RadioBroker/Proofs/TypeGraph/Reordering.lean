import RadioBroker.Proofs.TypeGraph.Inclusion
import RadioBroker.Proofs.TypeGraph.Mentions

/-!
# Graphs that differ in order

Two graphs that are built from the same types in different order are included in each other. They
relate these types alike and have the same names.
-/

namespace RadioBroker.TypeGraph

variable {graph other : TypeGraph} {id twin : TypeId}

/-- Two graphs have the same types and relate them by name. -/
structure Reordering (graph other : TypeGraph) : Prop extends Inclusion graph other where
  perm : graph.declarations.Perm other.declarations

/-- Graphs that relate the same types by name differ in order. -/
theorem Reordering.of_perm (hnamed : graph.Named) (hother : other.Named)
    (hperm : graph.declarations.Perm other.declarations) : Reordering graph other where
  named := hnamed
  otherNamed := hother
  subset := hperm.subset
  declared _ _ _ hfound :=
    hperm.mem_iff.mpr (List.mem_map_of_mem (List.mem_of_find?_eq_some hfound))
  perm := hperm

/-- Declarations in another order are built into the same types. -/
theorem reordering_of_build {given reordered : List Declaration} (h : build given = .ok graph)
    (hother : build reordered = .ok other) (hperm : given.Perm reordered)
    (hfamilies : FamiliesDistinct given)
    (hgiven : ∀ entry ∈ given, ∀ t ∈ entry.interfaces, t.WellFormed) : Reordering graph other :=
  .of_perm (named_of_build h) (named_of_build hother)
    (declarations_perm_of_build h hother hperm hfamilies hgiven)

/-- Types of two graphs have the same full names. -/
def SameNames (graph other : TypeGraph) (ids twins : List TypeId) : Prop :=
  ∀ name, name ∈ ids.map graph.fullName ↔ name ∈ twins.map other.fullName

/-- Types that are twins of each other have the same full names. -/
theorem SameNames.of_twins {ids twins : List TypeId}
    (h : ∀ id ∈ ids, ∃ twin ∈ twins, Twins graph other id twin)
    (hother : ∀ twin ∈ twins, ∃ id ∈ ids, Twins graph other id twin) :
    SameNames graph other ids twins := by
  intro name
  simp only [List.mem_map]
  constructor
  · intro hname
    obtain ⟨id, hid, rfl⟩ := hname
    obtain ⟨twin, htwin, htwins⟩ := h id hid
    exact ⟨twin, htwin, htwins.fullName_eq.symm⟩
  · intro hname
    obtain ⟨twin, htwin, rfl⟩ := hname
    obtain ⟨id, hid, htwins⟩ := hother twin htwin
    exact ⟨id, hid, htwins.fullName_eq⟩

namespace Reordering

/-- The order of two graphs may be exchanged. -/
theorem symm (h : Reordering graph other) : Reordering other graph :=
  .of_perm h.otherNamed h.named h.perm.symm

/-- Both graphs have the same number of types. -/
theorem size_eq (h : Reordering graph other) : graph.size = other.size := by
  have hlength := h.perm.length_eq
  rwa [declarations, declarations, List.length_map, List.length_map] at hlength

/-- Graphs that differ in order have the same names. -/
theorem sameNames (h : Reordering graph other) : SameNames graph other graph.ids other.ids := by
  refine .of_twins (fun id hid => ?_) fun twin htwin => ?_
  · obtain ⟨twin, htwins⟩ := h.exists_twins (mem_ids.mp hid)
    exact ⟨twin, mem_ids.mpr htwins.symm.lt, htwins⟩
  · obtain ⟨id, htwins⟩ := h.symm.exists_twins (mem_ids.mp htwin)
    exact ⟨id, mem_ids.mpr htwins.symm.lt, htwins.symm⟩

/-- The types around twins are twins, one by one. -/
theorem ancestors_forall₂ (h : Reordering graph other) (htwins : Twins graph other id twin) :
    List.Forall₂ (Twins graph other) (graph.ancestors id) (other.ancestors twin) := by
  have hclimb : ∀ steps, List.Forall₂ (Twins graph other) (graph.climb steps id)
      (other.climb steps twin) := by
    intro steps
    induction steps generalizing id twin with
    | zero => exact .nil
    | succ steps ih =>
        unfold climb
        cases hparent : graph.parent? id with
        | none =>
            rw [h.parent?_eq_none htwins hparent]
            exact .nil
        | some outer =>
            obtain ⟨outerTwin, htwinParent, houter⟩ := h.exists_parent htwins hparent
            rw [htwinParent]
            exact .cons houter (ih houter)
  rw [ancestors, ancestors, ← h.size_eq]
  exact hclimb graph.size

end Reordering

end RadioBroker.TypeGraph
