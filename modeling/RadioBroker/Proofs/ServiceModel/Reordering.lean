import RadioBroker.Proofs.ServiceModel.Inclusion
import RadioBroker.Proofs.ServiceModel.Linked
import RadioBroker.Proofs.ServiceModel.Namespaces
import RadioBroker.Proofs.ServiceModel.Reports
import RadioBroker.Proofs.TypeGraph.Reordering

/-!
# Models that differ in order

What a preparation finds out about a type depends on its declaration, on the types around it and on
its interfaces. Twins in graphs that differ in order have these in common, so they get the same
marker, the same reports and the same contract. Two ready models of such graphs therefore agree on
all that is said by full names.
-/

namespace RadioBroker

open Relation

namespace TypeGraph

variable {graph other : TypeGraph} {id twin : TypeId} {node twinNode : TypeNode} {t : TypeExpr}
  {diagnostic : Diagnostic}

namespace Reordering

/-! ## What is found out about twins -/

/-- The types around twins that are not partial are reported alike. -/
theorem parentDiagnostics_eq (h : Reordering graph other) (htwins : Twins graph other id twin) :
    graph.parentDiagnostics id = other.parentDiagnostics twin := by
  have hancestors := h.ancestors_forall₂ htwins
  unfold parentDiagnostics
  generalize graph.ancestors id = outers at hancestors ⊢
  generalize other.ancestors twin = outerTwins at hancestors ⊢
  induction hancestors with
  | nil => rfl
  | cons houter _ ih =>
      obtain ⟨node, twinNode, hnode, htwin, heq⟩ := houter
      rw [filterMap_cons_eq_append, filterMap_cons_eq_append, ih, hnode, htwin]
      simp only [heq]

/-- The checks of twins report the same. -/
theorem reports_eq (h : Reordering graph other) (htwins : Twins graph other id twin) :
    graph.reports id = other.reports twin := by
  have hbase : graph.extendsBase id = other.extendsBase twin := by
    rw [extendsBase, extendsBase, h.allInterfaces_eq htwins]
  have hservice : graph.serviceDiagnostics id = other.serviceDiagnostics twin := by
    rw [serviceDiagnostics, serviceDiagnostics, verdicts, verdicts, h.candidates_eq htwins,
      h.parentDiagnostics_eq htwins]
  have hmissing : graph.missingBase id = other.missingBase twin := by
    obtain ⟨node, twinNode, hnode, htwin, heq⟩ := htwins
    simp [missingBase, hnode, htwin, heq]
  rw [reports, reports, hbase, hservice, hmissing]

/-! ## What a preparation says -/

/-- If all is well with the services of one graph, it is with those of the other. -/
theorem outcome_eq (h : Reordering graph other) :
    ((ServiceModel.ofGraph graph).prepare .empty).outcome =
      ((ServiceModel.ofGraph other).prepare .empty).outcome := by
  have hready : ∀ {first second : TypeGraph}, Reordering first second →
      ((ServiceModel.ofGraph first).prepare .empty).outcome = .ready →
        ((ServiceModel.ofGraph second).prepare .empty).outcome = .ready := by
    intro first second hboth hfirst
    rw [ServiceModel.outcome_prepare_eq_ready_iff] at hfirst ⊢
    intro twin hmarked
    obtain ⟨id, htwins⟩ := hboth.symm.exists_twins (lt_of_serviceBound? hmarked)
    have hbase := hfirst id (by rwa [hboth.serviceBound?_eq htwins.symm])
    rwa [extendsBase, ← hboth.allInterfaces_eq htwins.symm]
  cases hleft : ((ServiceModel.ofGraph graph).prepare .empty).outcome with
  | ready => rw [hready h hleft]
  | aborted =>
      cases hright : ((ServiceModel.ofGraph other).prepare .empty).outcome with
      | ready =>
          rw [hready h.symm hright] at hleft
          cases hleft
      | aborted => rfl

/-- What is delivered for one graph is delivered for the other. -/
theorem delivered_subset (h : Reordering graph other)
    (hmem : diagnostic ∈ ((ServiceModel.ofGraph graph).prepare .empty).delivered) :
    diagnostic ∈ ((ServiceModel.ofGraph other).prepare .empty).delivered := by
  rw [ServiceModel.mem_delivered_iff] at hmem ⊢
  rcases hmem with ⟨id, hid⟩ | ⟨id, hservice, hid⟩
  · obtain ⟨twin, htwins⟩ := h.exists_twins (lt_of_markerDiagnostic? hid)
    refine Or.inl ⟨twin, ?_⟩
    rwa [markerDiagnostic?, ← h.marker?_eq htwins]
  · obtain ⟨twin, htwins⟩ := h.exists_twins (lt_of_serviceBound? hservice)
    rw [h.serviceBound?_eq htwins] at hservice
    rw [h.reports_eq htwins] at hid
    exact Or.inr ⟨twin, hservice, hid⟩

/-- The same is delivered for both graphs, up to order. -/
theorem mem_delivered_iff (h : Reordering graph other) :
    diagnostic ∈ ((ServiceModel.ofGraph graph).prepare .empty).delivered ↔
      diagnostic ∈ ((ServiceModel.ofGraph other).prepare .empty).delivered :=
  ⟨h.delivered_subset, h.symm.delivered_subset⟩

/-- What a type needs has a twin among what its twin needs. -/
theorem exists_twin_needs (h : Reordering graph other) {needed : TypeId}
    (htwins : Twins graph other id twin) (hneeds : graph.Needs id needed) :
    ∃ neededTwin, other.Needs twin neededTwin ∧ Twins graph other needed neededTwin := by
  have hdefinition := h.definitionOf htwins
  rcases hneeds with rfl | hparent
  · exact ⟨_, Or.inl rfl, hdefinition⟩
  · obtain ⟨neededTwin, hneeded, hsame⟩ := h.exists_parent hdefinition hparent
    exact ⟨neededTwin, Or.inr hneeded, hsame⟩

/-- What a type needs through others has a twin among what its twin needs through others. -/
theorem exists_twin_reflTransGen (h : Reordering graph other) {needed : TypeId}
    (htwins : Twins graph other id twin) (hneeds : ReflTransGen graph.Needs id needed) :
    ∃ neededTwin, ReflTransGen other.Needs twin neededTwin ∧
      Twins graph other needed neededTwin := by
  induction hneeds with
  | refl => exact ⟨twin, .refl, htwins⟩
  | tail _ hstep ih =>
      obtain ⟨middleTwin, hway, hmiddle⟩ := ih
      obtain ⟨neededTwin, hneeded, hsame⟩ := h.exists_twin_needs hmiddle hstep
      exact ⟨neededTwin, hway.tail hneeded, hsame⟩

end Reordering

end TypeGraph

namespace ServiceModel

open TypeGraph

variable {model other : ServiceModel} {id twin : TypeId} {name : String}

/-! ## Ready models -/

/-- What two models know of two types is the same, other types being said by full name. -/
structure AgreesAt (model other : ServiceModel) (id twin : TypeId) : Prop where
  isService : model.isService id = other.isService twin
  maxLinks : model.maxLinks id = other.maxLinks twin
  className : model.className id = other.className twin
  methods : model.methods id = other.methods twin
  parent : (model.graph.parent? id).map model.graph.fullName =
    (other.graph.parent? twin).map other.graph.fullName
  definition : model.graph.fullName (model.graph.definitionOf id) =
    other.graph.fullName (other.graph.definitionOf twin)
  children : SameNames model.graph other.graph (model.relations.childrenOf id)
    (other.relations.childrenOf twin)
  instances : SameNames model.graph other.graph (model.relations.instancesOf id)
    (other.relations.instancesOf twin)

/-- Two models agree on types of one full name, and their namespaces have the same roots. -/
structure Agrees (model other : ServiceModel) : Prop where
  types : ∀ id twin, id < model.graph.size → twin < other.graph.size →
    model.graph.fullName id = other.graph.fullName twin → AgreesAt model other id twin
  namespaces : ∀ name, name ∈ model.namespaces.map Prod.fst ↔ name ∈ other.namespaces.map Prod.fst
  roots : ∀ name roots twins, (name, roots) ∈ model.namespaces → (name, twins) ∈ other.namespaces →
    SameNames model.graph other.graph roots twins

/-- Two analysed models of graphs that differ in order, in which just what the services need is
linked. -/
structure Reordered (model other : ServiceModel) : Prop where
  graph : Reordering model.graph other.graph
  analysed : model.Analysed
  otherAnalysed : other.Analysed
  linked : ∀ id, model.relations.Linked model.graph id ↔ model.NeededByService id
  otherLinked : ∀ id, other.relations.Linked other.graph id ↔ other.NeededByService id

/-- Ready preparations of graphs that differ in order leave models that differ in order. -/
theorem reordered_of_prepare {given reordered : List Declaration} {graph another : TypeGraph}
    (hgraph : Reordering graph another) (hbuild : TypeGraph.build given = .ok graph)
    (hother : TypeGraph.build reordered = .ok another)
    (hready : ((ofGraph graph).prepare .empty).outcome = .ready) :
    Reordered ((ofGraph graph).prepare .empty).model ((ofGraph another).prepare .empty).model := by
  have hotherReady := hgraph.outcome_eq.symm.trans hready
  obtain ⟨hsame, hanalysed, _⟩ := analysed_of_prepare hbuild hready
  obtain ⟨hotherSame, hotherAnalysed, _⟩ := analysed_of_prepare hother hotherReady
  refine ⟨by rwa [hsame, hotherSame], hanalysed, hotherAnalysed, ?_, ?_⟩
  · rw [hsame]
    exact linked_iff_of_prepare hbuild hready
  · rw [hotherSame]
    exact linked_iff_of_prepare hother hotherReady

namespace Reordered

/-- The order of two models may be exchanged. -/
theorem symm (h : Reordered model other) : Reordered other model :=
  ⟨h.graph.symm, h.otherAnalysed, h.analysed, h.otherLinked, h.linked⟩

/-- A model that differs in order is included in the other one. -/
theorem included (h : Reordered model other) : Included model other :=
  ⟨h.graph.toInclusion, h.analysed, h.otherAnalysed⟩

/-- A linked type has a linked twin. -/
theorem linked_of_twins (h : Reordered model other)
    (htwins : Twins model.graph other.graph id twin)
    (hid : model.relations.Linked model.graph id) : other.relations.Linked other.graph twin := by
  obtain ⟨service, hservice, hneeds⟩ := (h.linked id).mp hid
  obtain ⟨serviceTwin, hserviceTwins⟩ :=
    h.graph.exists_twins (h.analysed.lt_of_isService hservice)
  obtain ⟨found, hfound, hsame⟩ := h.graph.exists_twin_reflTransGen hserviceTwins hneeds
  rw [h.included.isService_eq hserviceTwins] at hservice
  rw [h.graph.twins_unique htwins hsame]
  exact (h.otherLinked found).mpr ⟨serviceTwin, hservice, hfound⟩

/-- An instance of a definition has a twin among the instances of the twin. -/
theorem exists_instance (h : Reordered model other)
    (htwins : Twins model.graph other.graph id twin) {applied : TypeId}
    (happlied : applied ∈ model.relations.instancesOf id) :
    ∃ appliedTwin ∈ other.relations.instancesOf twin,
      Twins model.graph other.graph applied appliedTwin := by
  obtain ⟨hlinked, rfl⟩ := h.analysed.relations.mem_instancesOf_iff.mp happlied
  obtain ⟨appliedTwin, hsame⟩ := h.graph.exists_twins hlinked.1
  refine ⟨appliedTwin, h.otherAnalysed.relations.mem_instancesOf_iff.mpr ⟨?_, ?_⟩, hsame⟩
  · exact h.linked_of_twins hsame hlinked
  · exact h.graph.twins_unique (h.graph.definitionOf hsame) htwins

/-- A definition with instances has a twin with instances. -/
theorem instancesOf_ne_nil (h : Reordered model other)
    (htwins : Twins model.graph other.graph id twin)
    (hinstances : model.relations.instancesOf id ≠ []) :
    other.relations.instancesOf twin ≠ [] := by
  obtain ⟨applied, happlied⟩ := List.exists_mem_of_ne_nil _ hinstances
  obtain ⟨appliedTwin, hmem, _⟩ := h.exists_instance htwins happlied
  exact List.ne_nil_of_mem hmem

/-- A definition in a type has a twin in the twin of the type. -/
theorem exists_child (h : Reordered model other)
    (htwins : Twins model.graph other.graph id twin) {child : TypeId}
    (hchild : child ∈ model.relations.childrenOf id) :
    ∃ childTwin ∈ other.relations.childrenOf twin,
      Twins model.graph other.graph child childTwin := by
  obtain ⟨hencloses, hinstances⟩ := h.analysed.relations.mem_childrenOf_iff.mp hchild
  obtain ⟨childTwin, hsame⟩ := h.graph.exists_twins hencloses.inner_lt
  obtain ⟨outerTwin, houter, houterTwins⟩ := h.graph.exists_parent hsame hencloses
  cases h.graph.twins_unique htwins houterTwins
  exact ⟨childTwin, h.otherAnalysed.relations.mem_childrenOf_iff.mpr
    ⟨houter, h.instancesOf_ne_nil hsame hinstances⟩, hsame⟩

/-- A root has a twin among the roots. -/
theorem exists_root (h : Reordered model other) (hid : id ∈ model.relations.roots) :
    ∃ twin ∈ other.relations.roots, Twins model.graph other.graph id twin := by
  obtain ⟨hroot, hinstances⟩ := h.analysed.relations.mem_roots_iff.mp hid
  obtain ⟨twin, hsame⟩ := h.graph.exists_twins (h.analysed.lt_of_instances hinstances)
  exact ⟨twin, h.otherAnalysed.relations.mem_roots_iff.mpr
    ⟨h.graph.parent?_eq_none hsame hroot, h.instancesOf_ne_nil hsame hinstances⟩, hsame⟩

/-- Models that differ in order agree on twins. -/
theorem agreesAt (h : Reordered model other) (htwins : Twins model.graph other.graph id twin) :
    AgreesAt model other id twin := by
  constructor
  case isService => exact h.included.isService_eq htwins
  case maxLinks => exact h.included.maxLinks_eq htwins
  case className => exact h.included.className_eq htwins
  case methods => exact h.included.methods_eq htwins
  case definition => exact (h.graph.definitionOf htwins).fullName_eq
  case parent => exact h.graph.parent?_fullName_eq htwins
  case children =>
    refine .of_twins (fun child hchild => h.exists_child htwins hchild) fun child hchild => ?_
    obtain ⟨childTwin, hmem, hsame⟩ := h.symm.exists_child htwins.symm hchild
    exact ⟨childTwin, hmem, hsame.symm⟩
  case instances =>
    refine .of_twins (fun applied happlied => h.exists_instance htwins happlied)
      fun applied happlied => ?_
    obtain ⟨appliedTwin, hmem, hsame⟩ := h.symm.exists_instance htwins.symm happlied
    exact ⟨appliedTwin, hmem, hsame.symm⟩

/-- The roots of a namespace have twins among the roots of that namespace. -/
theorem exists_root_of_namespaces (h : Reordered model other) {roots twins : List TypeId}
    (hroots : (name, roots) ∈ model.namespaces) (htwins : (name, twins) ∈ other.namespaces)
    (hid : id ∈ roots) : ∃ twin ∈ twins, Twins model.graph other.graph id twin := by
  rw [mem_namespaces_iff] at hroots htwins
  rw [hroots.2, List.mem_filter, decide_eq_true_eq] at hid
  obtain ⟨twin, htwin, hsame⟩ := h.exists_root hid.1
  refine ⟨twin, ?_, hsame⟩
  rw [htwins.2, List.mem_filter, decide_eq_true_eq]
  exact ⟨htwin, (namespaceOf_eq hsame).symm.trans hid.2⟩

/-- Models that differ in order have the same namespaces. -/
theorem namespaces_subset (h : Reordered model other)
    (hname : name ∈ model.namespaces.map Prod.fst) : name ∈ other.namespaces.map Prod.fst := by
  rw [mem_map_fst_namespaces_iff] at hname ⊢
  obtain ⟨root, hroot, rfl⟩ := hname
  obtain ⟨twin, htwin, hsame⟩ := h.exists_root hroot
  exact ⟨twin, htwin, (namespaceOf_eq hsame).symm⟩

/-- Models that differ in order agree. -/
theorem agrees (h : Reordered model other) : Agrees model other where
  types _ _ hid htwin hname := h.agreesAt (h.graph.twins_of_fullName hid htwin hname)
  namespaces _ := ⟨h.namespaces_subset, h.symm.namespaces_subset⟩
  roots name roots twins hroots htwins := by
    refine .of_twins (fun root hroot => h.exists_root_of_namespaces hroots htwins hroot)
      fun root hroot => ?_
    obtain ⟨rootTwin, hmem, hsame⟩ := h.symm.exists_root_of_namespaces htwins hroots hroot
    exact ⟨rootTwin, hmem, hsame.symm⟩

end Reordered

end ServiceModel

end RadioBroker
