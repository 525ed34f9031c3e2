import RadioBroker.Declaration.Builder
import RadioBroker.Proofs.ServiceModel.Namespaces
import RadioBroker.Proofs.ServiceModel.Preparation

/-!
# Analysis step by step

The steps of an analysis may be taken in any order, for any types and as often as one likes.
Whatever has been done, the relations are those of the linked types, and doing all of it once more
changes nothing. Linking ends on every graph, be the enclosing types or the definitions a circle: it
is never nested deeper than there are unlinked types.
-/

namespace RadioBroker

/-! ## Linking as a bounded recursion -/

namespace Relations

/-- Linking a type as the recursion that it is, given up when it is nested `depth` levels deep. -/
def linkWithin (graph : TypeGraph) : (depth : Nat) → Relations → TypeId → Option Relations
  | 0, _, _ => none
  | depth + 1, relations, id =>
    if id ∈ relations.unlinked then
      let definition := graph.definitionOf id
      let defined? :=
        if definition = id then some (relations.claim id)
        else linkWithin graph depth (relations.claim id) definition
      defined?.bind fun defined =>
        match graph.parent? definition with
        | none => some ((defined.addRoot definition).addInstance definition id)
        | some parent =>
          (linkWithin graph depth defined parent).map fun enclosed =>
            (enclosed.addChild parent definition).addInstance definition id
    else some relations

variable {graph : TypeGraph}

/-- The recursion ends within as many levels as there are unlinked types, and one more to see that
nothing is left. -/
theorem linkWithin_eq {depth : Nat} {relations : Relations} {id : TypeId}
    (h : relations.unlinked.length < depth) :
    linkWithin graph depth relations id = some (relations.link graph id) := by
  induction depth generalizing relations id with
  | zero => cases h
  | succ depth ih =>
      rw [linkWithin]
      by_cases hmem : id ∈ relations.unlinked
      case neg => rw [if_neg hmem, link_of_notMem hmem]
      case pos =>
        have hclaimed : (relations.claim id).unlinked.length < depth :=
          Nat.lt_of_lt_of_le (length_claim_lt hmem) (Nat.lt_succ_iff.mp h)
        have hdefined : (if graph.definitionOf id = id then some (relations.claim id)
            else linkWithin graph depth (relations.claim id) (graph.definitionOf id)) =
            some (afterDefinition graph relations id) := by
          unfold afterDefinition
          split
          · rfl
          · exact ih hclaimed
        have hless : (afterDefinition graph relations id).unlinked.length < depth :=
          Nat.lt_of_le_of_lt (length_unlinked_afterDefinition_le graph relations id) hclaimed
        rw [if_pos hmem]
        simp only [hdefined, Option.bind_some]
        cases hparent : graph.parent? (graph.definitionOf id) with
        | none => rw [link_of_root hmem hparent]
        | some parent =>
            rw [link_of_nested hmem hparent]
            simp only [ih hless, Option.map_some]

end Relations

/-! ## Sequences of steps -/

/-- A step of the analysis. -/
inductive AnalysisStep where
  /-- The marker of the type is read. -/
  | configure (id : TypeId)
  /-- The type is linked. -/
  | link (id : TypeId)
  /-- The type is checked. -/
  | check (id : TypeId)

namespace AnalysisStep

/-- Takes a step. -/
def perform (state : ServiceModel × DiagnosticLog) : AnalysisStep → ServiceModel × DiagnosticLog
  | configure id => state.1.configure state.2 id
  | link id => (state.1.configureRelation id, state.2)
  | check id => state.1.check state.2 id

/-- Takes steps one after another. -/
def performAll (state : ServiceModel × DiagnosticLog) (steps : List AnalysisStep) :
    ServiceModel × DiagnosticLog :=
  steps.foldl perform state

/-- The step has been taken before. -/
def Done (model : ServiceModel) : AnalysisStep → Prop
  | configure id => id ∈ model.configured
  | link id => id ∉ model.relations.unlinked
  | check id => id ∈ model.checked

end AnalysisStep

namespace ServiceModel

variable {model : ServiceModel} {log : DiagnosticLog} {id : TypeId}

/-- What steps of an analysis may change: markers are read, types are linked and checked, and
nothing of this is taken back. -/
structure Progress (before after : ServiceModel) : Prop where
  graph_eq : after.graph = before.graph
  configured : before.configured ⊆ after.configured
  checked : before.checked ⊆ after.checked
  linking : Relations.Linking before.graph before.relations after.relations

/-- No steps are progress. -/
theorem Progress.refl (model : ServiceModel) : Progress model model where
  graph_eq := rfl
  configured := List.Subset.refl _
  checked := List.Subset.refl _
  linking := .refl _ _

/-- Progress behind progress is progress. -/
theorem Progress.trans {before middle after : ServiceModel} (hfirst : Progress before middle)
    (hsecond : Progress middle after) : Progress before after where
  graph_eq := hsecond.graph_eq.trans hfirst.graph_eq
  configured := List.Subset.trans hfirst.configured hsecond.configured
  checked := List.Subset.trans hfirst.checked hsecond.checked
  linking := hfirst.linking.trans (hfirst.graph_eq ▸ hsecond.linking)

/-- What has been done stays done. -/
theorem Progress.done {before after : ServiceModel} (h : Progress before after)
    {step : AnalysisStep} (hdone : step.Done before) : step.Done after := by
  cases step with
  | configure id => exact h.configured hdone
  | link id => exact fun hmem => hdone (h.linking.unlinked_sublist.subset hmem)
  | check id => exact h.checked hdone

/-- A marker that has been read is passed over. -/
theorem configure_of_mem (h : id ∈ model.configured) : model.configure log id = (model, log) :=
  if_pos h

/-- Reading a marker is progress. -/
theorem progress_configure (model : ServiceModel) (log : DiagnosticLog) (id : TypeId) :
    Progress model (model.configure log id).1 ∧ id ∈ (model.configure log id).1.configured := by
  by_cases hmem : id ∈ model.configured
  · rw [configure_of_mem hmem]
    exact ⟨.refl model, hmem⟩
  · rw [configure_eq hmem]
    refine ⟨⟨rfl, ?_, List.Subset.refl _, .refl _ _⟩, ?_⟩
    · exact List.subset_append_left _ _
    · exact List.mem_append_right _ List.mem_cons_self

/-- The check of a type is progress. -/
theorem progress_check (model : ServiceModel) (log : DiagnosticLog) (id : TypeId) :
    Progress model (model.check log id).1 ∧ id ∈ (model.check log id).1.checked := by
  by_cases hmem : id ∈ model.checked
  · rw [check_of_mem hmem]
    exact ⟨.refl model, hmem⟩
  · rw [check_of_notMem hmem]
    refine ⟨⟨rfl, List.Subset.refl _, ?_, .refl _ _⟩, ?_⟩
    · exact List.subset_append_left _ _
    · exact List.mem_append_right _ List.mem_cons_self

/-- Linking a type is progress. -/
theorem progress_configureRelation (hnodup : model.relations.unlinked.Nodup) (id : TypeId) :
    Progress model (model.configureRelation id) ∧
      id ∉ (model.configureRelation id).relations.unlinked := by
  obtain ⟨hlinking, hlinked⟩ := Relations.linking_link model.graph model.relations id hnodup
  exact ⟨⟨rfl, List.Subset.refl _, List.Subset.refl _, hlinking⟩, hlinked⟩

end ServiceModel

namespace AnalysisStep

open ServiceModel

variable {state : ServiceModel × DiagnosticLog} {step : AnalysisStep} {steps : List AnalysisStep}

/-- A step is progress, and is done afterwards. -/
theorem progress_perform (hnodup : state.1.relations.unlinked.Nodup) (step : AnalysisStep) :
    Progress state.1 (perform state step).1 ∧ step.Done (perform state step).1 := by
  cases step with
  | configure id => exact progress_configure state.1 state.2 id
  | link id => exact progress_configureRelation hnodup id
  | check id => exact progress_check state.1 state.2 id

/-- Steps are progress, and all of them are done afterwards. -/
theorem progress_performAll (hnodup : state.1.relations.unlinked.Nodup)
    (steps : List AnalysisStep) :
    Progress state.1 (performAll state steps).1 ∧
      ∀ step ∈ steps, step.Done (performAll state steps).1 := by
  induction steps generalizing state with
  | nil => exact ⟨.refl _, nofun⟩
  | cons step steps ih =>
      obtain ⟨hstep, hdone⟩ := progress_perform hnodup step
      obtain ⟨hlater, hall⟩ := ih (hstep.linking.unlinked_sublist.nodup hnodup)
      exact ⟨hstep.trans hlater, List.forall_mem_cons.mpr ⟨hlater.done hdone, hall⟩⟩

/-- A step that is done changes neither the model nor the log. -/
theorem perform_of_done (h : step.Done state.1) : perform state step = state := by
  cases step with
  | configure id => exact configure_of_mem h
  | link id => rw [perform, configureRelation, Relations.link_of_notMem h]
  | check id => exact check_of_mem h

/-- Steps that are done change neither the model nor the log. -/
theorem performAll_of_done (h : ∀ step ∈ steps, step.Done state.1) :
    performAll state steps = state := by
  induction steps with
  | nil => rfl
  | cons step steps ih =>
      obtain ⟨hstep, hsteps⟩ := List.forall_mem_cons.mp h
      show performAll (perform state step) steps = state
      rw [perform_of_done hstep]
      exact ih hsteps

end AnalysisStep

/-! ## What holds after any steps -/

namespace ServiceModel

/-- The relations of a model are those of its linked types, each recorded once: what is recorded
agrees with the graph, and what is linked is recorded. -/
structure RelationsSound (model : ServiceModel) : Prop where
  childrenOf_nodup : ∀ id, (model.relations.childrenOf id).Nodup
  instancesOf_nodup : ∀ id, (model.relations.instancesOf id).Nodup
  names_nodup : (model.namespaces.map Prod.fst).Nodup
  roots_nodup : ∀ entry ∈ model.namespaces, entry.2.Nodup
  parent_of_child : ∀ id, ∀ child ∈ model.relations.childrenOf id,
    model.graph.parent? child = some id
  namespace_of_root : ∀ entry ∈ model.namespaces, ∀ root ∈ entry.2,
    model.graph.parent? root = none ∧ model.namespaceOf root = entry.1
  definition_of_instance : ∀ id, ∀ applied ∈ model.relations.instancesOf id,
    model.graph.definitionOf applied = id
  /-- A linked type is an instance of its definition, and that is linked. -/
  instance_of_linked : ∀ id, model.isLinked id = true →
    id ∈ model.relations.instancesOf (model.graph.definitionOf id) ∧
      model.isLinked (model.graph.definitionOf id) = true
  /-- The definition of a linked type is a root of its namespace, or a child of the type around it,
  which is linked as well. -/
  placed_of_linked : ∀ id, model.isLinked id = true →
    match model.graph.parent? (model.graph.definitionOf id) with
    | none => ∃ entry ∈ model.namespaces,
        entry.1 = model.namespaceOf (model.graph.definitionOf id) ∧
          model.graph.definitionOf id ∈ entry.2
    | some parent =>
        model.graph.definitionOf id ∈ model.relations.childrenOf parent ∧
          model.isLinked parent = true

variable {model : ServiceModel} {id : TypeId}

/-- A type of the graph is linked if it is not unlinked. -/
theorem isLinked_iff : model.isLinked id = true ↔ model.relations.Linked model.graph id := by
  simp [isLinked, Relations.Linked]

/-- Relations that are consistent with their graph are sound. -/
theorem relationsSound_of_consistent (h : model.relations.Consistent model.graph) :
    model.RelationsSound := by
  constructor
  case childrenOf_nodup => exact fun _ => Relations.nodup_related h.distinct.children
  case instancesOf_nodup => exact fun _ => Relations.nodup_related h.distinct.instances
  case names_nodup =>
    rw [namespaces, List.map_map]
    exact (List.map_id _).symm ▸ nodup_eraseDups _
  case roots_nodup =>
    intro entry hentry
    rw [(mem_namespaces_iff.mp hentry).2]
    exact h.distinct.roots.filter _
  case parent_of_child => exact fun _ _ hchild => (h.mem_childrenOf_iff.mp hchild).1
  case namespace_of_root =>
    intro entry hentry root hroot
    rw [(mem_namespaces_iff.mp hentry).2, List.mem_filter, decide_eq_true_eq] at hroot
    exact ⟨(h.mem_roots_iff.mp hroot.1).1, hroot.2⟩
  case definition_of_instance =>
    exact fun _ _ happlied => (h.mem_instancesOf_iff.mp happlied).2
  case instance_of_linked =>
    intro id hid
    rw [isLinked_iff] at hid ⊢
    exact ⟨h.mem_instancesOf_iff.mpr ⟨hid, rfl⟩, h.needs hid (Or.inl rfl)⟩
  case placed_of_linked =>
    intro id hid
    rw [isLinked_iff] at hid
    have hinstances : model.relations.instancesOf (model.graph.definitionOf id) ≠ [] :=
      List.ne_nil_of_mem (h.mem_instancesOf_iff.mpr ⟨hid, rfl⟩)
    cases hparent : model.graph.parent? (model.graph.definitionOf id) with
    | none =>
        have hroot := h.mem_roots_iff.mpr ⟨hparent, hinstances⟩
        refine ⟨(_, _), mem_namespaces_iff.mpr ⟨⟨_, hroot, rfl⟩, rfl⟩, rfl, ?_⟩
        exact List.mem_filter.mpr ⟨hroot, decide_eq_true rfl⟩
    | some parent =>
        refine ⟨h.mem_childrenOf_iff.mpr ⟨hparent, hinstances⟩, isLinked_iff.mpr ?_⟩
        exact h.needs hid (Or.inr hparent)

/-- Whatever steps have been taken on a graph that was built, the relations are sound, linking any
type ends, and taking all the steps once more changes neither the model nor the log. -/
theorem performAll_sound {declarations : List Declaration} {graph : TypeGraph}
    (hbuild : TypeGraph.build declarations = .ok graph) (log : DiagnosticLog)
    (steps : List AnalysisStep) :
    let state := AnalysisStep.performAll (ofGraph graph, log) steps
    state.1.graph = graph ∧ state.1.RelationsSound ∧
      (∀ id depth, state.1.relations.unlinked.length < depth →
        Relations.linkWithin graph depth state.1.relations id =
          some (state.1.configureRelation id).relations) ∧
      AnalysisStep.performAll state steps = state := by
  intro state
  have hunlinked : (ofGraph graph, log).1.relations.unlinked.Nodup := List.nodup_range
  obtain ⟨hprogress, hdone⟩ := AnalysisStep.progress_performAll hunlinked steps
  have hgraph : state.1.graph = graph := hprogress.graph_eq
  refine ⟨hgraph, ?_, ?_, AnalysisStep.performAll_of_done hdone⟩
  · refine relationsSound_of_consistent ?_
    rw [hgraph]
    exact hprogress.linking.consistent (TypeGraph.wellFormed_of_build hbuild)
  · intro id depth hdepth
    rw [configureRelation, hgraph]
    exact Relations.linkWithin_eq hdepth

/-- Two types that enclose each other, and two that apply each other. -/
def circles : List Declaration :=
  [{ Declaration.ofPath .classType "N" "A" with containingType := some "N.B" },
   { Declaration.ofPath .classType "N" "B" with containingType := some "N.A" },
   { Declaration.ofPath .interface "N" "C" with generics := .closedOver "N.D" [] },
   { Declaration.ofPath .interface "N" "D" with generics := .closedOver "N.C" [] }]

/-- The graph of `circles`. -/
def circlesGraph : TypeGraph :=
  ⟨[⟨circles[0], some 1, 0⟩, ⟨circles[1], some 0, 1⟩, ⟨circles[2], none, 3⟩, ⟨circles[3], none, 2⟩]⟩

/-- Linking goes round both circles once: each of the types is linked along with the others on its
circle, however often it is asked for, and in whatever order. -/
theorem performAll_circles :
    let steps := [.check 3, .link 0, .configure 1, .link 2, .link 0]
    let state := AnalysisStep.performAll (ofGraph circlesGraph, .empty) steps
    TypeGraph.build circles = .ok circlesGraph ∧ state.1.RelationsSound ∧
      (∀ id < 4, state.1.isLinked id = true) ∧
      state.1.relations.childrenOf 0 = [1] ∧ state.1.relations.childrenOf 1 = [0] ∧
      Relations.linkWithin circlesGraph 1 state.1.relations 3 = some state.1.relations ∧
      AnalysisStep.performAll state steps = state := by
  intro steps state
  have hbuild : TypeGraph.build circles = .ok circlesGraph := by rfl
  obtain ⟨hgraph, hsound, hends, hreplay⟩ := performAll_sound hbuild .empty steps
  have hunlinked : state.1.relations.unlinked = [] := by decide +kernel
  have hlinked : ∀ id < 4, state.1.isLinked id = true := by
    intro id hid
    rw [isLinked_iff, Relations.Linked, hunlinked]
    exact ⟨hgraph.symm ▸ hid, List.not_mem_nil⟩
  refine ⟨hbuild, hsound, hlinked, by decide +kernel, by decide +kernel, ?_, hreplay⟩
  have hdone : state.1.configureRelation 3 = state.1 := by
    rw [configureRelation, Relations.link_of_notMem (isLinked_iff.mp (hlinked 3 (by decide))).2]
  rw [hends 3 1 (by rw [hunlinked]; decide), hdone]

end ServiceModel

end RadioBroker
