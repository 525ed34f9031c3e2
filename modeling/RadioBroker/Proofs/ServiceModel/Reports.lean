import RadioBroker.Proofs.ServiceModel.Preparation

/-!
# What a preparation delivers

A preparation delivers what reading each marker and checking each service reports. That is so
whether it ends ready or aborted: a service without the base interface is reported for that alone,
and all others are checked as if it were not there. So what is delivered is the union of what is
reported of each type alone.
-/

namespace RadioBroker

namespace TypeGraph

/-- Only markers of types of the graph are reported. -/
theorem lt_of_markerDiagnostic? {graph : TypeGraph} {id : TypeId} {diagnostic : Diagnostic}
    (h : graph.markerDiagnostic? id = some diagnostic) : id < graph.size := by
  obtain ⟨mark, hmark, _⟩ := Option.bind_eq_some_iff.mp h
  refine lt_of_serviceBound? ?_
  rw [serviceBound?, hmark]
  rfl

/-- Where a type is declared. -/
def locationOf (graph : TypeGraph) (id : TypeId) : Location :=
  ((graph.node? id).map fun node => node.declaration.location).getD {}

/-- The report of a type that is not partial and encloses a service. -/
def notPartialDiagnostic (graph : TypeGraph) (id : TypeId) : Diagnostic :=
  ⟨.notPartialParent (graph.fullName id), graph.locationOf id⟩

/-- The types around a type are reported unless they are partial. -/
theorem mem_parentDiagnostics_iff {graph : TypeGraph} {id : TypeId} {diagnostic : Diagnostic} :
    diagnostic ∈ graph.parentDiagnostics id ↔
      ∃ outer ∈ graph.ancestors id, outer < graph.size ∧ ¬ graph.IsPartial outer ∧
        diagnostic = graph.notPartialDiagnostic outer := by
  rw [parentDiagnostics, List.mem_filterMap]
  refine exists_congr fun outer => and_congr_right fun _ => ?_
  rw [← exists_node_iff]
  cases hnode : graph.node? outer with
  | none => simp
  | some node =>
      cases hpartial : node.declaration.isPartial with
      | true =>
          have hyes : graph.IsPartial outer := ⟨node, hnode, hpartial⟩
          simp [hpartial, hyes]
      | false =>
          have hno := not_isPartial hnode hpartial
          simp only [hpartial, Bool.false_eq_true, if_false, Option.some.injEq, hno,
            not_false_eq_true, true_and, notPartialDiagnostic, fullName, locationOf, hnode,
            Option.map_some, Option.getD_some, exists_eq']
          exact eq_comm

/-- A service that does not extend the base interface is reported for that. -/
theorem missingBase_of_marked {graph : TypeGraph} {id : TypeId}
    (hmarked : (graph.serviceBound? id).isSome = true) :
    graph.missingBase id = [⟨.missingRadioService, graph.locationOf id⟩] := by
  obtain ⟨node, hnode⟩ := exists_node_iff.mpr (lt_of_serviceBound? hmarked)
  simp [missingBase, locationOf, hnode]

/-! ## All that there is to report -/

/-- A type is marked and does not extend the base interface. -/
def LacksBase (graph : TypeGraph) (id : TypeId) : Prop :=
  (graph.serviceBound? id).isSome = true ∧ graph.extendsBase id = false

/-- A type is marked and extends the base interface. -/
def Checked (graph : TypeGraph) (id : TypeId) : Prop :=
  (graph.serviceBound? id).isSome = true ∧ graph.extendsBase id = true

instance (graph : TypeGraph) (id : TypeId) : Decidable (graph.LacksBase id) :=
  inferInstanceAs (Decidable (_ ∧ _))

instance (graph : TypeGraph) (id : TypeId) : Decidable (graph.Checked id) :=
  inferInstanceAs (Decidable (_ ∧ _))

/-- What there is to report in a graph. -/
inductive Reported (graph : TypeGraph) : Diagnostic → Prop
  /-- A marker sets a bound on links that is none. -/
  | marker {id : TypeId} {diagnostic : Diagnostic}
      (hmarker : graph.markerDiagnostic? id = some diagnostic) : Reported graph diagnostic
  /-- A marked type does not extend the base interface. -/
  | missingBase {id : TypeId} (hlacks : graph.LacksBase id) :
      Reported graph ⟨.missingRadioService, graph.locationOf id⟩
  /-- A type around a checked one is not partial. -/
  | parent {id outer : TypeId} (hchecked : graph.Checked id) (houter : outer ∈ graph.ancestors id)
      (hlt : outer < graph.size) (hpartial : ¬ graph.IsPartial outer) :
      Reported graph (graph.notPartialDiagnostic outer)
  /-- A candidate of a checked type has the signature of an earlier one. -/
  | duplicate {id : TypeId} {position : Nat} {candidate first : Candidate}
      (hchecked : graph.Checked id) (hcandidate : (graph.candidates id)[position]? = some candidate)
      (hfirst : Candidate.forerunner? ((graph.candidates id).take position) candidate =
        some first) :
      Reported graph (Candidate.duplicateDiagnostic first candidate)
  /-- The first candidate of a signature has a return type without dispatch kind. -/
  | unsupported {id : TypeId} {position : Nat} {candidate : Candidate}
      (hchecked : graph.Checked id) (hcandidate : (graph.candidates id)[position]? = some candidate)
      (hfirst : Candidate.forerunner? ((graph.candidates id).take position) candidate = none)
      (hkind : ¬ candidate.Supported) : Reported graph candidate.unsupportedDiagnostic

end TypeGraph

namespace ServiceModel

variable {model : ServiceModel} {log : DiagnosticLog} {ids : List TypeId} {id : TypeId}

/-- A preparation delivers, in one go or two, all that its log holds in the end. -/
theorem delivered_eq (graph : TypeGraph) :
    ((ofGraph graph).prepare .empty).delivered =
      ((markerLog graph).flush.recordAll
        ((graph.ids.filter fun id => (graph.serviceBound? id).isSome).flatMap
          graph.reports)).recorded := by
  have hquiet : (markerLog graph).pending = (markerLog graph).recorded :=
    DiagnosticLog.pending_recordAll rfl
  have hcheck : ((linkedModel graph).checkAll (markerLog graph).flush graph.ids).2 = _ :=
    checkAll_snd_eq List.nodup_range (by simp)
  have hservices : (linkedModel graph).isService = fun id => (graph.serviceBound? id).isSome :=
    funext (isService_linkedModel graph)
  rw [linkedModel_graph, hservices] at hcheck
  rw [prepare_ofGraph]
  show _ ++ _ = _
  rw [hcheck, DiagnosticLog.pending_append_pending hquiet]

/-- A preparation delivers nothing twice. -/
theorem nodup_delivered (graph : TypeGraph) :
    ((ofGraph graph).prepare .empty).delivered.Nodup := by
  rw [delivered_eq]
  exact ((tied_markerLog graph).flush.recordAll _).nodup

/-- What a preparation delivers is what reading markers and checking services reports. -/
theorem mem_delivered_iff (graph : TypeGraph) (diagnostic : Diagnostic) :
    diagnostic ∈ ((ofGraph graph).prepare .empty).delivered ↔
      (∃ id, graph.markerDiagnostic? id = some diagnostic) ∨
        ∃ id, (graph.serviceBound? id).isSome = true ∧ diagnostic ∈ graph.reports id := by
  rw [delivered_eq, DiagnosticLog.mem_recorded_recordAll]
  refine or_congr ?_ ?_
  · show diagnostic ∈ (DiagnosticLog.empty.recordAll _).recorded ↔ _
    rw [DiagnosticLog.mem_recorded_recordAll, List.mem_filterMap]
    constructor
    · rintro (hnever | ⟨id, _, hid⟩)
      · cases hnever
      · exact ⟨id, hid⟩
    · rintro ⟨id, hid⟩
      exact Or.inr ⟨id, TypeGraph.mem_ids.mpr (TypeGraph.lt_of_markerDiagnostic? hid), hid⟩
  · simp only [List.mem_flatMap, List.mem_filter, TypeGraph.mem_ids]
    constructor
    · rintro ⟨id, ⟨_, hservice⟩, hmem⟩
      exact ⟨id, hservice, hmem⟩
    · rintro ⟨id, hservice, hmem⟩
      exact ⟨id, ⟨TypeGraph.lt_of_serviceBound? hservice, hservice⟩, hmem⟩

/-! ## The kinds of reports -/

/-- What a preparation delivers is all there is to report in the graph. -/
theorem mem_delivered_iff_reported (graph : TypeGraph) (diagnostic : Diagnostic) :
    diagnostic ∈ ((ofGraph graph).prepare .empty).delivered ↔ graph.Reported diagnostic := by
  rw [mem_delivered_iff]
  constructor
  · rintro (⟨id, hmarker⟩ | ⟨id, hmarked, hreport⟩)
    · exact .marker hmarker
    · rw [TypeGraph.reports] at hreport
      cases hbase : graph.extendsBase id with
      | false =>
          rw [hbase, if_neg Bool.false_ne_true, TypeGraph.missingBase_of_marked hmarked] at hreport
          cases List.mem_singleton.mp hreport
          exact .missingBase ⟨hmarked, hbase⟩
      | true =>
          rw [hbase, if_pos rfl, TypeGraph.serviceDiagnostics, List.mem_append] at hreport
          rcases hreport with hparent | hverdict
          · obtain ⟨outer, houter, hlt, hpartial, rfl⟩ :=
              TypeGraph.mem_parentDiagnostics_iff.mp hparent
            exact .parent ⟨hmarked, hbase⟩ houter hlt hpartial
          · obtain ⟨position, candidate, hcandidate, ⟨first, hfirst, rfl⟩ | ⟨hfirst, hkind, rfl⟩⟩ :=
              Candidate.mem_diagnostics_iff.mp hverdict
            · exact .duplicate ⟨hmarked, hbase⟩ hcandidate hfirst
            · exact .unsupported ⟨hmarked, hbase⟩ hcandidate hfirst hkind
  · intro hreported
    cases hreported with
    | marker hmarker => exact Or.inl ⟨_, hmarker⟩
    | missingBase hlacks =>
        refine Or.inr ⟨_, hlacks.1, ?_⟩
        rw [TypeGraph.reports, hlacks.2, if_neg Bool.false_ne_true,
          TypeGraph.missingBase_of_marked hlacks.1]
        exact List.mem_singleton_self _
    | parent hchecked houter hlt hpartial =>
        refine Or.inr ⟨_, hchecked.1, ?_⟩
        rw [TypeGraph.reports, if_pos hchecked.2]
        exact List.mem_append_left _
          (TypeGraph.mem_parentDiagnostics_iff.mpr ⟨_, houter, hlt, hpartial, rfl⟩)
    | duplicate hchecked hcandidate hfirst =>
        refine Or.inr ⟨_, hchecked.1, ?_⟩
        rw [TypeGraph.reports, if_pos hchecked.2]
        exact List.mem_append_right _
          (Candidate.mem_diagnostics_iff.mpr ⟨_, _, hcandidate, Or.inl ⟨_, hfirst, rfl⟩⟩)
    | unsupported hchecked hcandidate hfirst hkind =>
        refine Or.inr ⟨_, hchecked.1, ?_⟩
        rw [TypeGraph.reports, if_pos hchecked.2]
        exact List.mem_append_right _
          (Candidate.mem_diagnostics_iff.mpr ⟨_, _, hcandidate, Or.inr ⟨hfirst, hkind, rfl⟩⟩)

/-! ## What is reported of one type -/

/-- What is reported of one type alone, when its marker is read and it is checked with a log of its
own. -/
def reportsAlone (graph : TypeGraph) (id : TypeId) : List Diagnostic :=
  let configured := (ofGraph graph).configure .empty id
  (configured.1.check configured.2 id).2.recorded

/-- Of one type alone its marker and its check are reported. -/
theorem mem_reportsAlone_iff {graph : TypeGraph} {diagnostic : Diagnostic} :
    diagnostic ∈ reportsAlone graph id ↔
      graph.markerDiagnostic? id = some diagnostic ∨
        (graph.serviceBound? id).isSome = true ∧ diagnostic ∈ graph.reports id := by
  have hconfigured : (ofGraph graph).configure .empty id =
      ({ ofGraph graph with configured := [id], services := markedAmong graph [id] },
        DiagnosticLog.empty.recordAll (graph.markerDiagnostic? id).toList) :=
    configure_eq List.not_mem_nil
  have hservice : ({ ofGraph graph with configured := [id], services := markedAmong graph [id] } :
      ServiceModel).isService id = (graph.serviceBound? id).isSome := by
    rw [isService, markedAmong, lookup_filterMap, if_pos List.mem_cons_self]
  have hcheck := @check_of_notMem
    { ofGraph graph with configured := [id], services := markedAmong graph [id] }
    (DiagnosticLog.empty.recordAll (graph.markerDiagnostic? id).toList) id List.not_mem_nil
  rw [reportsAlone, hconfigured, hcheck, hservice, DiagnosticLog.mem_recorded_recordAll,
    DiagnosticLog.mem_recorded_recordAll, Option.mem_toList]
  show (diagnostic ∈ [] ∨ _) ∨ diagnostic ∈ (if _ then graph.reports id else []) ↔ _
  by_cases hmarked : (graph.serviceBound? id).isSome = true
  · simp [hmarked]
  · simp [hmarked]

/-- What a preparation delivers is what is reported of each type alone. -/
theorem mem_delivered_iff_exists_reportsAlone (graph : TypeGraph) (diagnostic : Diagnostic) :
    diagnostic ∈ ((ofGraph graph).prepare .empty).delivered ↔
      ∃ id < graph.size, diagnostic ∈ reportsAlone graph id := by
  simp only [mem_delivered_iff, mem_reportsAlone_iff]
  constructor
  · rintro (⟨id, hmarker⟩ | ⟨id, hservice, hreport⟩)
    · exact ⟨id, TypeGraph.lt_of_markerDiagnostic? hmarker, Or.inl hmarker⟩
    · exact ⟨id, TypeGraph.lt_of_serviceBound? hservice, Or.inr ⟨hservice, hreport⟩⟩
  · rintro ⟨id, _, hmarker | hreport⟩
    · exact Or.inl ⟨id, hmarker⟩
    · exact Or.inr ⟨id, hreport⟩

/-! ## Quiet preparations -/

/-- How to see by evaluation that a preparation delivers nothing. -/
theorem delivered_eq_nil_of_all {graph : TypeGraph}
    (h : (graph.ids.all fun id => (graph.markerDiagnostic? id).isNone &&
      ((graph.serviceBound? id).isNone || (graph.reports id).isEmpty)) = true) :
    ((ofGraph graph).prepare .empty).delivered = [] := by
  refine List.eq_nil_iff_forall_not_mem.mpr ?_
  intro diagnostic hmem
  have hall : ∀ id, id < graph.size → _ := fun id hid =>
    List.all_eq_true.mp h id (TypeGraph.mem_ids.mpr hid)
  rcases (mem_delivered_iff graph diagnostic).mp hmem with ⟨id, hid⟩ | ⟨id, hservice, hid⟩
  · have hquiet := hall id (TypeGraph.lt_of_markerDiagnostic? hid)
    simp [hid] at hquiet
  · have hquiet := hall id (TypeGraph.lt_of_serviceBound? hservice)
    have hmarked : (graph.serviceBound? id).isNone = false := by
      rw [← Option.not_isSome, hservice]
      rfl
    rw [hmarked, Bool.false_or, Bool.and_eq_true, List.isEmpty_iff] at hquiet
    rw [hquiet.2] at hid
    cases hid

end ServiceModel

end RadioBroker
