import RadioBroker.Proofs.TypeGraph.Containment
import RadioBroker.Proofs.TypeGraph.Interfaces
import RadioBroker.Proofs.TypeGraph.ByName

/-!
# Graphs within graphs

A graph is included in another one if its types are there as well, and if the names that its
extension lists mention stand for nothing else there. A type and its twin in the other graph have
one declaration; their enclosing types and their definitions are twins again, and they have the same
interfaces.
-/

namespace RadioBroker.TypeGraph

variable {graph other : TypeGraph} {id twin : TypeId} {name : String} {t : TypeExpr}

/-- The enclosing types and the definitions in a graph are those that its declarations name. -/
structure Named (graph : TypeGraph) : Prop extends WellFormed graph where
  parent : ∀ {id : TypeId} {node : TypeNode}, graph.node? id = some node →
    node.parent.map graph.fullName = node.declaration.containingType
  definition : ∀ {id : TypeId} {node : TypeNode}, graph.node? id = some node →
    graph.fullName node.definition = node.declaration.definitionName

/-- A graph that is built relates its types by name. -/
theorem named_of_build {limit : Nat} {given : List Declaration}
    (h : buildWithin limit given = .ok graph) : graph.Named where
  toWellFormed := wellFormed_of_build h
  parent := parent_of_build h
  definition := definition_of_build h

/-- The types of a graph are types of another one, in which the names that they mention stand for
nothing else. -/
structure Inclusion (graph other : TypeGraph) : Prop where
  named : graph.Named
  otherNamed : other.Named
  subset : graph.declarations ⊆ other.declarations
  declared : ∀ t ∈ graph.mentioned, ∀ node, other.declared? t.display = some node →
    node.declaration ∈ graph.declarations

/-- The types at two positions, each in a graph of its own, have one declaration. -/
def Twins (graph other : TypeGraph) (id twin : TypeId) : Prop :=
  ∃ node twinNode, graph.node? id = some node ∧ other.node? twin = some twinNode ∧
    node.declaration = twinNode.declaration

/-- Twins have one full name. -/
theorem Twins.fullName_eq (h : Twins graph other id twin) :
    graph.fullName id = other.fullName twin := by
  obtain ⟨node, twinNode, hnode, htwin, heq⟩ := h
  rw [fullName_of_node hnode, fullName_of_node htwin, heq]

/-- A type with a twin is a type of its graph. -/
theorem Twins.lt (h : Twins graph other id twin) : id < graph.size := by
  obtain ⟨node, _, hnode, _⟩ := h
  exact exists_node_iff.mp ⟨node, hnode⟩

/-- To be twins is mutual. -/
theorem Twins.symm (h : Twins graph other id twin) : Twins other graph twin id := by
  obtain ⟨node, twinNode, hnode, htwin, heq⟩ := h
  exact ⟨twinNode, node, htwin, hnode, heq.symm⟩

namespace Inclusion

/-- Every type has a twin. -/
theorem exists_twins (h : Inclusion graph other) (hid : id < graph.size) :
    ∃ twin, Twins graph other id twin := by
  obtain ⟨node, hnode⟩ := exists_node_iff.mpr hid
  have hmem : node.declaration ∈ other.declarations :=
    h.subset (List.mem_map_of_mem (List.mem_of_getElem? hnode))
  obtain ⟨twinNode, htwin, heq⟩ := List.mem_map.mp hmem
  obtain ⟨twin, htwin⟩ := List.mem_iff_getElem?.mp htwin
  exact ⟨twin, node, twinNode, hnode, htwin, heq.symm⟩

/-- Types of one full name are twins. -/
theorem twins_of_fullName (h : Inclusion graph other) (hid : id < graph.size)
    (htwin : twin < other.size) (hname : graph.fullName id = other.fullName twin) :
    Twins graph other id twin := by
  obtain ⟨found, hfound⟩ := h.exists_twins hid
  rwa [← h.otherNamed.fullName_inj hfound.symm.lt htwin (hfound.fullName_eq.symm.trans hname)]

/-- The twin of a type is determined. -/
theorem twins_unique (h : Inclusion graph other) {another : TypeId}
    (htwins : Twins graph other id twin) (hanother : Twins graph other id another) :
    twin = another :=
  h.otherNamed.fullName_inj htwins.symm.lt hanother.symm.lt
    (htwins.fullName_eq.symm.trans hanother.fullName_eq)

/-- The enclosing types of twins have one full name. -/
theorem parent?_fullName_eq (h : Inclusion graph other) (htwins : Twins graph other id twin) :
    (graph.parent? id).map graph.fullName = (other.parent? twin).map other.fullName := by
  obtain ⟨node, twinNode, hnode, htwin, heq⟩ := htwins
  rw [parent?, parent?, hnode, htwin, Option.bind_some, Option.bind_some, h.named.parent hnode,
    h.otherNamed.parent htwin, heq]

/-- The twin of a type that no type encloses is such a type. -/
theorem parent?_eq_none (h : Inclusion graph other) (htwins : Twins graph other id twin)
    (hroot : graph.parent? id = none) : other.parent? twin = none := by
  have hnames := h.parent?_fullName_eq htwins
  rwa [hroot, Option.map_none, eq_comm, Option.map_eq_none_iff] at hnames

/-- The twin of a nested type is nested in the twin of the enclosing type. -/
theorem exists_parent (h : Inclusion graph other) (htwins : Twins graph other id twin)
    {outer : TypeId} (houter : graph.parent? id = some outer) :
    ∃ outerTwin, other.parent? twin = some outerTwin ∧ Twins graph other outer outerTwin := by
  have hnames := h.parent?_fullName_eq htwins
  rw [houter, Option.map_some, eq_comm, Option.map_eq_some_iff] at hnames
  obtain ⟨outerTwin, houterTwin, hname⟩ := hnames
  exact ⟨outerTwin, houterTwin, h.twins_of_fullName (h.named.parent_lt houter)
    (h.otherNamed.parent_lt houterTwin) hname.symm⟩

/-- The definitions of twins are twins. -/
theorem definitionOf (h : Inclusion graph other) (htwins : Twins graph other id twin) :
    Twins graph other (graph.definitionOf id) (other.definitionOf twin) := by
  refine h.twins_of_fullName (h.named.definition_lt htwins.lt)
    (h.otherNamed.definition_lt htwins.symm.lt) ?_
  obtain ⟨node, twinNode, hnode, htwin, heq⟩ := htwins
  simp only [TypeGraph.definitionOf, hnode, htwin, Option.map_some, Option.getD_some]
  rw [h.named.definition hnode, h.otherNamed.definition htwin, heq]

/-- Under the name of a type its twin is found in the other graph. -/
theorem exists_declared (h : Inclusion graph other) {node : TypeNode}
    (hfound : graph.declared? name = some node) :
    ∃ twinNode, other.declared? name = some twinNode ∧ ∃ id twin, graph.node? id = some node ∧
      other.node? twin = some twinNode ∧ node.declaration = twinNode.declaration := by
  obtain ⟨id, hnode, hname⟩ := (declared?_eq_some_iff h.named.toWellFormed).mp hfound
  obtain ⟨twin, _, twinNode, hsame, htwin, heq⟩ :=
    h.exists_twins (exists_node_iff.mp ⟨node, hnode⟩)
  cases hnode.symm.trans hsame
  refine ⟨twinNode, ?_, id, twin, hnode, htwin, heq⟩
  exact (declared?_eq_some_iff h.otherNamed.toWellFormed).mpr
    ⟨twin, htwin, (congrArg _ heq.symm).trans hname⟩

/-- Under a mentioned name that is not declared nothing is found in the other graph either. -/
theorem declared?_eq_none (h : Inclusion graph other) (ht : t ∈ graph.mentioned)
    (hfound : graph.declared? t.display = none) : other.declared? t.display = none := by
  cases hother : other.declared? t.display with
  | none => rfl
  | some twinNode =>
      obtain ⟨node, hnode, heq⟩ := List.mem_map.mp (h.declared t ht twinNode hother)
      have hname := List.find?_some hother
      have hmissing := List.find?_eq_none.mp hfound node hnode
      rw [heq] at hmissing
      exact absurd hname hmissing

/-- A mentioned type extends the same types in both graphs. -/
theorem extensionsOf_eq (h : Inclusion graph other) (ht : t ∈ graph.mentioned) :
    other.extensionsOf t = graph.extensionsOf t := by
  unfold extensionsOf
  cases hfound : graph.declared? t.display with
  | none => rw [h.declared?_eq_none ht hfound]
  | some node =>
      obtain ⟨twinNode, hother, _, _, _, _, heq⟩ := h.exists_declared hfound
      rw [hother]
      exact congrArg Declaration.interfaces heq.symm

/-- What a graph mentions the other one mentions as well. -/
theorem mentioned_subset (h : Inclusion graph other) : graph.mentioned ⊆ other.mentioned := by
  intro t ht
  obtain ⟨node, hnode, hmem⟩ := List.mem_flatMap.mp ht
  obtain ⟨twinNode, htwin, heq⟩ := List.mem_map.mp (h.subset (List.mem_map_of_mem hnode))
  exact List.mem_flatMap.mpr ⟨twinNode, htwin, by rwa [heq]⟩

/-- Twins have the same interfaces, in the same order. -/
theorem allInterfaces_eq (h : Inclusion graph other) (htwins : Twins graph other id twin) :
    graph.allInterfaces id = other.allInterfaces twin := by
  obtain ⟨node, twinNode, hnode, htwin, heq⟩ := htwins
  have hvisit := @preorder_map graph other (fun t => t) (fun t => t ∈ graph.mentioned)
    (fun t ht => by rw [List.map_id', h.extensionsOf_eq ht])
    (fun _ _ _ hs => mem_mentioned_of_extends hs) (fun _ _ _ _ heq => heq)
    graph.mentioned other.mentioned node.declaration.interfaces
    (fun _ ht => iff_of_true (h.mentioned_subset ht) ht)
    (fun _ ht => mem_mentioned_of_mem hnode ht)
  simp only [List.map_id'] at hvisit
  rw [allInterfaces, allInterfaces, hnode, htwin]
  simp only [← heq, hvisit]

end Inclusion

end RadioBroker.TypeGraph
