import Mathlib.Algebra.Group.Int.Defs
import RadioBroker.Proofs.ServiceModel.Steps

/-!
# Markers in any order

Which marker governs a type, said by the attributes that types carry, and what it sets: a bound on
links, none, or a value that is no bound. Once the markers of all types have been read, in whatever
order and however often, the services are the governed types, each with the bound of its marker, and
the log holds what the governing markers are refused for, each such report once.
-/

namespace RadioBroker

theorem unboundedLinks_eq : unboundedLinks = 2 ^ 31 - 1 := rfl

/-! ## Governing markers -/

namespace Attribute

/-- An attribute of the marker's class, with or without the word `Attribute` at the end of its
name. -/
def IsMarker (mark : Attribute) : Prop :=
  mark.name = "CrossChannel.RadioServiceInterfaceAttribute" ∨
    mark.name = "CrossChannel.RadioServiceInterface"

/-- The marker bounds the number of links: by a positive integer of 32 bits. -/
def Bounds (mark : Attribute) (bound : Int) : Prop :=
  mark.named? "MaxLinks" = some (.integer bound) ∧ 1 ≤ bound ∧ bound ≤ 2 ^ 31 - 1

/-- The marker has a value in place of a bound that bounds nothing; `found` is its text. -/
def Refused (mark : Attribute) (found : String) : Prop :=
  ∃ value, mark.named? "MaxLinks" = some value ∧ value.display = found ∧
    ∀ bound, ¬ mark.Bounds bound

variable {mark : Attribute} {bound : Int} {problem : Problem}

/-- The marker's class is found under both of its names. -/
theorem isNamed_markerName : mark.isNamed markerName = true ↔ mark.IsMarker := by
  have hsplit : markerName = "CrossChannel.RadioServiceInterface" ++ "Attribute" := rfl
  have hshort : mark.name ++ "Attribute" = markerName ↔
      mark.name = "CrossChannel.RadioServiceInterface" := by
    rw [hsplit, String.append_left_inj]
  rw [isNamed, Bool.or_eq_true, decide_eq_true_eq, decide_eq_true_eq, hshort]
  rfl

/-- The bound of a marker is read. -/
theorem Bounds.linkBound_eq (h : mark.Bounds bound) : mark.linkBound = .ok bound := by
  obtain ⟨hvalue, hrange⟩ := h
  rw [linkBound, hvalue]
  exact if_pos hrange

/-- A marker without a value in place of a bound leaves the number of links open. -/
theorem linkBound_of_none (h : mark.named? "MaxLinks" = none) :
    mark.linkBound = .ok unboundedLinks := by
  rw [linkBound, h]

/-- A marker is refused for a value that bounds nothing. -/
theorem linkBound_of_refused {value : AttributeValue} (hvalue : mark.named? "MaxLinks" = some value)
    (hbounds : ∀ bound, ¬ mark.Bounds bound) :
    mark.linkBound = .error (.invalidMaxLinks value.display) := by
  rw [linkBound, hvalue]
  cases value with
  | integer bound => exact if_neg fun hrange => hbounds bound ⟨hvalue, hrange⟩
  | bool flag => rfl
  | string text => rfl

/-- A marker is refused exactly for a value that bounds nothing. -/
theorem linkBound_eq_error_iff : mark.linkBound = .error problem ↔
    ∃ found, mark.Refused found ∧ problem = .invalidMaxLinks found := by
  constructor
  · intro h
    cases hvalue : mark.named? "MaxLinks" with
    | none => cases (linkBound_of_none hvalue).symm.trans h
    | some value =>
        have hbounds : ∀ bound, ¬ mark.Bounds bound := by
          intro bound hbound
          cases hbound.linkBound_eq.symm.trans h
        have hproblem := (linkBound_of_refused hvalue hbounds).symm.trans h
        exact ⟨value.display, ⟨value, hvalue, rfl, hbounds⟩, (Except.error.inj hproblem).symm⟩
  · rintro ⟨_, ⟨value, hvalue, rfl, hbounds⟩, rfl⟩
    exact linkBound_of_refused hvalue hbounds

/-- A marker that sets no bound leaves the number of links open. -/
theorem linkBound_getD_of_not_bounds (h : ∀ bound, ¬ mark.Bounds bound) :
    mark.linkBound.toOption.getD unboundedLinks = unboundedLinks := by
  cases hvalue : mark.named? "MaxLinks" with
  | none => rw [linkBound_of_none hvalue]; rfl
  | some value => rw [linkBound_of_refused hvalue h]; rfl

end Attribute

namespace Declaration

variable {declaration : Declaration} {mark : Attribute}

/-- A declaration carries a marker: the first of its attributes that is one. -/
def Carries (declaration : Declaration) (mark : Attribute) : Prop :=
  ∃ before after, declaration.attributes = before ++ mark :: after ∧ mark.IsMarker ∧
    ∀ other ∈ before, ¬ other.IsMarker

/-- The marker that is found is the one that the declaration carries. -/
theorem attribute?_eq_some_iff :
    declaration.attribute? markerName = some mark ↔ declaration.Carries mark := by
  have hothers (other : Attribute) : (!other.isNamed markerName) = true ↔ ¬ other.IsMarker := by
    rw [Bool.not_eq_true', ← Bool.not_eq_true, Attribute.isNamed_markerName]
  rw [attribute?, List.find?_eq_some_iff_append, Attribute.isNamed_markerName]
  simp only [hothers]
  constructor
  · rintro ⟨hmark, before, after, hattributes, hbefore⟩
    exact ⟨before, after, hattributes, hmark, hbefore⟩
  · rintro ⟨before, after, hattributes, hmark, hbefore⟩
    exact ⟨hmark, before, after, hattributes, hbefore⟩

/-- None is found if no attribute is a marker. -/
theorem attribute?_eq_none_iff :
    declaration.attribute? markerName = none ↔
      ∀ other ∈ declaration.attributes, ¬ other.IsMarker := by
  simp only [attribute?, List.find?_eq_none, Attribute.isNamed_markerName]

end Declaration

namespace TypeGraph

variable {graph : TypeGraph} {id : TypeId} {mark : Attribute}

/-- The marker that governs a type: its own, or that of its definition where a closed type carries
none. -/
inductive Governs (graph : TypeGraph) : TypeId → Attribute → Prop
  | own {id : TypeId} {mark : Attribute} {node : TypeNode} (hnode : graph.node? id = some node)
      (hmark : node.declaration.Carries mark) : Governs graph id mark
  | inherited {id : TypeId} {mark : Attribute} {node definition : TypeNode}
      (hnode : graph.node? id = some node)
      (hbare : ∀ other ∈ node.declaration.attributes, ¬ other.IsMarker)
      (hclosed : node.declaration.generics.isClosed = true)
      (hdefinition : graph.node? node.definition = some definition)
      (hmark : definition.declaration.Carries mark) : Governs graph id mark

/-- The marker of a type is the one that governs it. -/
theorem marker?_eq_some_iff : graph.marker? id = some mark ↔ graph.Governs id mark := by
  constructor
  · intro h
    obtain ⟨node, hnode, h⟩ := Option.bind_eq_some_iff.mp h
    split at h
    · next own hown =>
        obtain rfl := Option.some.inj h
        exact .own hnode (Declaration.attribute?_eq_some_iff.mp hown)
    · next hbare =>
        split at h
        · next hclosed =>
            obtain ⟨definition, hdefinition, hmark⟩ := Option.bind_eq_some_iff.mp h
            exact .inherited hnode (Declaration.attribute?_eq_none_iff.mp hbare) hclosed hdefinition
              (Declaration.attribute?_eq_some_iff.mp hmark)
        · cases h
  · intro h
    cases h with
    | own hnode hmark =>
        simp [marker?, hnode, Declaration.attribute?_eq_some_iff.mpr hmark]
    | inherited hnode hbare hclosed hdefinition hmark =>
        simp [marker?, hnode, Declaration.attribute?_eq_none_iff.mpr hbare, hclosed, hdefinition,
          Declaration.attribute?_eq_some_iff.mpr hmark]

/-- The marked types are those that a marker governs. -/
theorem isSome_serviceBound?_iff :
    (graph.serviceBound? id).isSome = true ↔ ∃ mark, graph.Governs id mark := by
  simp only [serviceBound?, Option.isSome_map, Option.isSome_iff_exists, marker?_eq_some_iff]

/-- What is reported of markers is what the governing ones are refused for. -/
theorem markerDiagnostic?_eq_some_iff {diagnostic : Diagnostic} :
    graph.markerDiagnostic? id = some diagnostic ↔ ∃ mark found, graph.Governs id mark ∧
      mark.Refused found ∧ diagnostic = ⟨.invalidMaxLinks found, mark.location⟩ := by
  constructor
  · intro h
    obtain ⟨mark, hmark, h⟩ := Option.bind_eq_some_iff.mp h
    split at h
    · cases h
    · next problem hproblem =>
        obtain ⟨found, hfound, rfl⟩ := Attribute.linkBound_eq_error_iff.mp hproblem
        exact ⟨mark, found, marker?_eq_some_iff.mp hmark, hfound, (Option.some.inj h).symm⟩
  · rintro ⟨mark, found, hmark, hfound, rfl⟩
    have hbound := Attribute.linkBound_eq_error_iff.mpr ⟨found, hfound, rfl⟩
    rw [markerDiagnostic?, marker?_eq_some_iff.mpr hmark, Option.bind_some, hbound]

end TypeGraph

/-! ## Reading markers -/

namespace ServiceModel

variable {graph : TypeGraph} {model : ServiceModel} {log : DiagnosticLog} {id : TypeId}

/-- All markers of a graph have been read: the services are the marked types. -/
structure MarkersRead (graph : TypeGraph) (model : ServiceModel) : Prop where
  graph_eq : model.graph = graph
  configured : ∀ id < graph.size, id ∈ model.configured
  services : ∀ id, model.services.lookup id = graph.serviceBound? id

/-- Reading a marker once more changes no service. -/
theorem MarkersRead.configure (h : model.MarkersRead graph) (log : DiagnosticLog) (id : TypeId) :
    (model.configure log id).1.MarkersRead graph := by
  by_cases hread : id ∈ model.configured
  · rwa [configure_of_mem hread]
  · -- What has not been read is no type of the graph, and no marker governs it.
    have hnone : graph.serviceBound? id = none := by
      rw [← Option.not_isSome_iff_eq_none]
      exact fun hmarked => hread (h.configured id (TypeGraph.lt_of_serviceBound? hmarked))
    rw [configure_eq hread]
    constructor
    case graph_eq => exact h.graph_eq
    case configured => exact fun id hid => List.mem_append_left _ (h.configured id hid)
    case services =>
      intro other
      simpa [markedAmong, h.graph_eq, hnone] using h.services other

/-- Checking a type changes no service. -/
theorem MarkersRead.check (h : model.MarkersRead graph) (log : DiagnosticLog) (id : TypeId) :
    (model.check log id).1.MarkersRead graph := by
  by_cases hchecked : id ∈ model.checked
  · rwa [check_of_mem hchecked]
  · rw [check_of_notMem hchecked]
    exact ⟨h.graph_eq, h.configured, h.services⟩

/-- No step changes the services. -/
theorem MarkersRead.perform {state : ServiceModel × DiagnosticLog} (h : state.1.MarkersRead graph)
    (step : AnalysisStep) : (step.perform state).1.MarkersRead graph := by
  cases step with
  | configure id => exact h.configure state.2 id
  | link id => exact ⟨h.graph_eq, h.configured, h.services⟩
  | check id => exact h.check state.2 id

/-- No steps change the services. -/
theorem MarkersRead.performAll {state : ServiceModel × DiagnosticLog}
    (h : state.1.MarkersRead graph) (steps : List AnalysisStep) :
    (AnalysisStep.performAll state steps).1.MarkersRead graph := by
  induction steps generalizing state with
  | nil => exact h
  | cons step steps ih => exact ih (h.perform step)

/-- Reading the markers of types is a run of steps. -/
theorem configureAll_eq_performAll (model : ServiceModel) (log : DiagnosticLog)
    (ids : List TypeId) :
    model.configureAll log ids = AnalysisStep.performAll (model, log) (ids.map .configure) := by
  rw [AnalysisStep.performAll, List.foldl_map]
  rfl

/-- Checking types is a run of steps. -/
theorem checkAll_eq_performAll (model : ServiceModel) (log : DiagnosticLog) (ids : List TypeId) :
    model.checkAll log ids = AnalysisStep.performAll (model, log) (ids.map .check) := by
  rw [AnalysisStep.performAll, List.foldl_map]
  rfl

/-- A preparation changes no service. -/
theorem MarkersRead.prepare (h : model.MarkersRead graph) (log : DiagnosticLog) :
    (model.prepare log).model.MarkersRead graph := by
  have hconfigured : (model.configureAll log model.graph.ids).1.MarkersRead graph := by
    rw [configureAll_eq_performAll]
    exact MarkersRead.performAll h _
  have hlinked : ((model.configureAll log model.graph.ids).1.linkServices
      model.graph.ids).MarkersRead graph := by
    rw [linkServices_eq]
    exact ⟨hconfigured.graph_eq, hconfigured.configured, hconfigured.services⟩
  unfold ServiceModel.prepare
  dsimp only
  split
  · exact hlinked
  · rw [checkAll_eq_performAll]
    exact MarkersRead.performAll hlinked _

/-- Markers of a graph are being read, beginning with an empty log: the services are the marked
types among those that were read, and the log holds their reports. -/
structure ReadingMarkers (graph : TypeGraph) (state : ServiceModel × DiagnosticLog) : Prop where
  graph_eq : state.1.graph = graph
  services : state.1.services = markedAmong graph state.1.configured
  tied : state.2.Tied
  pending : state.2.pending = state.2.recorded
  recorded : ∀ diagnostic, diagnostic ∈ state.2.recorded ↔
    ∃ id ∈ state.1.configured, graph.markerDiagnostic? id = some diagnostic

/-- No marker of a graph has been read yet. -/
theorem ReadingMarkers.start (graph : TypeGraph) :
    ReadingMarkers graph (ofGraph graph, .empty) where
  graph_eq := rfl
  services := rfl
  tied := .empty
  pending := rfl
  recorded := by simp [ofGraph, DiagnosticLog.empty]

/-- One more marker is read. -/
theorem ReadingMarkers.configure {state : ServiceModel × DiagnosticLog}
    (h : ReadingMarkers graph state) (id : TypeId) :
    ReadingMarkers graph (state.1.configure state.2 id) := by
  by_cases hread : id ∈ state.1.configured
  · rwa [configure_of_mem hread]
  · rw [configure_eq hread, h.graph_eq]
    constructor
    case graph_eq => rfl
    case services => rw [h.services, markedAmong_append]
    case tied => exact h.tied.recordAll _
    case pending => exact DiagnosticLog.pending_recordAll h.pending
    case recorded =>
      intro diagnostic
      rw [DiagnosticLog.mem_recorded_recordAll, h.recorded]
      simp only [List.mem_append, List.mem_singleton, or_and_right, exists_or, exists_eq_left,
        Option.mem_toList]

/-- Markers are read in any order, and as often as one likes. -/
theorem ReadingMarkers.performAll {state : ServiceModel × DiagnosticLog}
    (h : ReadingMarkers graph state) (calls : List TypeId) :
    ReadingMarkers graph (AnalysisStep.performAll state (calls.map .configure)) := by
  induction calls generalizing state with
  | nil => exact h
  | cons id calls ih => exact ih (h.configure id)

/-- What is known once the markers of all types have been read in some order. -/
theorem readingMarkers_of_calls {calls : List TypeId} (hcalls : ∀ id < graph.size, id ∈ calls) :
    let state := AnalysisStep.performAll (ofGraph graph, .empty) (calls.map .configure)
    ReadingMarkers graph state ∧ state.1.MarkersRead graph := by
  intro state
  have hreading : ReadingMarkers graph state := (ReadingMarkers.start graph).performAll calls
  have hunlinked : (ofGraph graph, DiagnosticLog.empty).1.relations.unlinked.Nodup :=
    List.nodup_range
  obtain ⟨_, hdone⟩ := AnalysisStep.progress_performAll hunlinked (calls.map .configure)
  have hconfigured : ∀ id < graph.size, id ∈ state.1.configured := fun id hid =>
    hdone (.configure id) (List.mem_map_of_mem (hcalls id hid))
  refine ⟨hreading, hreading.graph_eq, hconfigured, fun id => ?_⟩
  have hlookup := lookup_filterMap graph.serviceBound? state.1.configured id
  rw [hreading.services, markedAmong, hlookup]
  split
  · rfl
  · next hnew =>
      rw [eq_comm, ← Option.not_isSome_iff_eq_none]
      exact fun hmarked => hnew (hconfigured id (TypeGraph.lt_of_serviceBound? hmarked))

/-- What has been reported once the markers of all types have been read. -/
theorem mem_pending_iff {calls : List TypeId} (hcalls : ∀ id < graph.size, id ∈ calls)
    {diagnostic : Diagnostic} :
    diagnostic ∈ (AnalysisStep.performAll (ofGraph graph, .empty)
        (calls.map .configure)).2.pending ↔
      ∃ id mark found, graph.Governs id mark ∧ mark.Refused found ∧
        diagnostic = ⟨.invalidMaxLinks found, mark.location⟩ := by
  obtain ⟨hreading, hread⟩ := readingMarkers_of_calls hcalls
  rw [hreading.pending, hreading.recorded]
  simp only [TypeGraph.markerDiagnostic?_eq_some_iff]
  constructor
  · rintro ⟨id, -, h⟩
    exact ⟨id, h⟩
  · rintro ⟨id, mark, found, hmark, h⟩
    have hid := TypeGraph.lt_of_serviceBound? (TypeGraph.isSome_serviceBound?_iff.mpr ⟨mark, hmark⟩)
    exact ⟨id, hread.configured id hid, mark, found, hmark, h⟩

namespace MarkersRead

variable (h : model.MarkersRead graph)

include h

/-- The services are the types that a marker governs. -/
theorem isService_iff : model.isService id = true ↔ ∃ mark, graph.Governs id mark := by
  rw [isService, h.services, TypeGraph.isSome_serviceBound?_iff]

/-- A service has the bound that its marker sets. -/
theorem maxLinks_eq {mark : Attribute} {bound : Int} (hmark : graph.Governs id mark)
    (hbound : mark.Bounds bound) : model.maxLinks id = bound := by
  rw [maxLinks, h.services, TypeGraph.serviceBound?, TypeGraph.marker?_eq_some_iff.mpr hmark,
    Option.map_some, hbound.linkBound_eq]
  rfl

/-- A type whose marker sets no bound has as many links as can be counted. -/
theorem maxLinks_eq_unbounded
    (hbounds : ∀ mark bound, graph.Governs id mark → ¬ mark.Bounds bound) :
    model.maxLinks id = 2 ^ 31 - 1 := by
  rw [maxLinks, h.services, TypeGraph.serviceBound?, ← unboundedLinks_eq]
  cases hmark : graph.marker? id with
  | none => rfl
  | some mark =>
      exact Attribute.linkBound_getD_of_not_bounds fun bound =>
        hbounds mark bound (TypeGraph.marker?_eq_some_iff.mp hmark)

/-- Every bound is a positive integer of 32 bits. -/
theorem maxLinks_bounds (id : TypeId) :
    1 ≤ model.maxLinks id ∧ model.maxLinks id ≤ 2 ^ 31 - 1 := by
  by_cases hbounds : ∃ mark bound, graph.Governs id mark ∧ mark.Bounds bound
  · obtain ⟨mark, bound, hmark, hbound⟩ := hbounds
    rw [h.maxLinks_eq hmark hbound]
    exact hbound.2
  · rw [h.maxLinks_eq_unbounded fun mark bound hmark hbound => hbounds ⟨mark, bound, hmark, hbound⟩]
    decide

end MarkersRead

end ServiceModel

end RadioBroker
