import RadioBroker.Proofs.ServiceModel.Checks
import RadioBroker.Proofs.ServiceModel.Linking
import RadioBroker.Proofs.TypeGraph.Interfaces
import RadioBroker.ServiceModel.Preparation

/-!
# What a preparation leaves

A preparation runs three passes over all types. Each of them is one equation here: which services
there are, which links they need, which contracts they get. A preparation that starts with an empty
log is ready exactly if every marked type extends the base interface, and `Analysed` collects what
is then known of the model.
-/

namespace RadioBroker

namespace TypeGraph

variable {graph : TypeGraph}

/-- The bound on links of a marked type; a marker with a bound that is none leaves it unbounded. -/
def serviceBound? (graph : TypeGraph) (id : TypeId) : Option Int :=
  (graph.marker? id).map fun mark => mark.linkBound.toOption.getD unboundedLinks

/-- What reading the marker of a type reports. -/
def markerDiagnostic? (graph : TypeGraph) (id : TypeId) : Option Diagnostic :=
  (graph.marker? id).bind fun mark =>
    match mark.linkBound with
    | .ok _ => none
    | .error problem => some ⟨problem, mark.location⟩

/-- Only types of the graph are marked. -/
theorem lt_of_serviceBound? {id : TypeId} (h : (graph.serviceBound? id).isSome = true) :
    id < graph.size := by
  cases hnode : graph.node? id with
  | none => simp [serviceBound?, marker?, hnode] at h
  | some node => exact exists_node_iff.mp ⟨node, hnode⟩

/-- A marker is reported for a bound on links that is none. -/
theorem exists_of_markerDiagnostic? {id : TypeId} {diagnostic : Diagnostic}
    (h : graph.markerDiagnostic? id = some diagnostic) :
    ∃ found location, diagnostic = ⟨.invalidMaxLinks found, location⟩ := by
  obtain ⟨mark, _, hmark⟩ := Option.bind_eq_some_iff.mp h
  split at hmark
  · cases hmark
  · rename_i problem hbound
    cases hmark
    unfold Attribute.linkBound at hbound
    repeat' split at hbound
    all_goals cases hbound
    all_goals exact ⟨_, _, rfl⟩

/-- A bound that is none is not fatal. -/
theorem markerDiagnostic?_not_fatal {id : TypeId} {diagnostic : Diagnostic}
    (h : graph.markerDiagnostic? id = some diagnostic) : diagnostic.isFatal = false := by
  obtain ⟨_, _, rfl⟩ := exists_of_markerDiagnostic? h
  rfl

/-- A type that is declared to extend the base interface extends it. -/
theorem extendsBase_of_declared {node : TypeNode} {id : TypeId} (hnode : graph.node? id = some node)
    (h : (node.declaration.interfaces.any fun t => t.isDefinition baseInterfaceName 0) = true) :
    graph.extendsBase id = true := by
  obtain ⟨t, hmem, ht⟩ := List.any_eq_true.mp h
  exact List.any_eq_true.mpr ⟨t, mem_allInterfaces_of_mem hnode hmem, ht⟩

end TypeGraph

namespace ServiceModel

variable {model : ServiceModel} {log : DiagnosticLog} {ids : List TypeId} {id : TypeId}

/-! ## The pass over markers -/

/-- The services among types, each with its bound on links. -/
def markedAmong (graph : TypeGraph) (ids : List TypeId) : List (TypeId × Int) :=
  ids.filterMap fun id => (graph.serviceBound? id).map fun bound => (id, bound)

/-- Services among more types are found behind those among the first. -/
theorem markedAmong_append (graph : TypeGraph) (ids more : List TypeId) :
    markedAmong graph (ids ++ more) = markedAmong graph ids ++ markedAmong graph more :=
  List.filterMap_append

/-- Reading the marker of a type that has not been read. -/
theorem configure_eq (hnew : id ∉ model.configured) :
    model.configure log id =
      ({ model with
          configured := model.configured ++ [id]
          services := model.services ++ markedAmong model.graph [id] },
        log.recordAll (model.graph.markerDiagnostic? id).toList) := by
  unfold configure
  rw [if_neg hnew]
  cases hmark : model.graph.marker? id with
  | none => simp [hmark, markedAmong, TypeGraph.serviceBound?, TypeGraph.markerDiagnostic?]
  | some mark =>
      cases hbound : mark.linkBound with
      | ok bound =>
          simp [hmark, hbound, markedAmong, TypeGraph.serviceBound?, TypeGraph.markerDiagnostic?,
            Except.toOption]
      | error problem =>
          simp [hmark, hbound, markedAmong, TypeGraph.serviceBound?, TypeGraph.markerDiagnostic?,
            Except.toOption, DiagnosticLog.recordAll]

/-- Reading the markers of types that have not been read. -/
theorem configureAll_eq (hnodup : ids.Nodup) (hnew : ∀ id ∈ ids, id ∉ model.configured) :
    model.configureAll log ids =
      ({ model with
          configured := model.configured ++ ids
          services := model.services ++ markedAmong model.graph ids },
        log.recordAll (ids.filterMap model.graph.markerDiagnostic?)) := by
  induction ids generalizing model log with
  | nil => simp [configureAll, markedAmong]
  | cons id ids ih =>
      obtain ⟨hid, hrest⟩ := List.nodup_cons.mp hnodup
      show (model.configure log id).1.configureAll (model.configure log id).2 ids = _
      rw [configure_eq (hnew id List.mem_cons_self), ih hrest]
      · rw [← DiagnosticLog.recordAll_append, List.append_assoc, List.append_assoc,
          ← markedAmong_append, ← filterMap_cons_eq_append]
        rfl
      · intro other hother
        simp only [List.mem_append, List.mem_singleton, not_or]
        exact ⟨hnew other (List.mem_cons_of_mem _ hother), fun heq => hid (heq ▸ hother)⟩

/-! ## The pass over links -/

/-- Linking services changes nothing but relations. -/
theorem linkServices_eq (model : ServiceModel) (ids : List TypeId) :
    model.linkServices ids = { model with relations := (model.linkServices ids).relations } := by
  induction ids generalizing model with
  | nil => rfl
  | cons id ids ih =>
      show (if model.isService id then model.configureRelation id else model).linkServices ids = _
      split
      · rename_i hservice
        rw [ih (model.configureRelation id)]
        simp [linkServices, hservice, configureRelation]
      · rename_i hservice
        rw [ih model]
        simp [linkServices, hservice]

/-- Linking services links those of the types that are services. -/
theorem relations_linkServices (model : ServiceModel) (ids : List TypeId) :
    (model.linkServices ids).relations =
      model.relations.linkAll model.graph (ids.filter model.isService) := by
  induction ids generalizing model with
  | nil => rfl
  | cons id ids ih =>
      show ((if model.isService id then model.configureRelation id else model).linkServices
        ids).relations = _
      by_cases hservice : model.isService id = true
      · rw [if_pos hservice, List.filter_cons_of_pos hservice]
        exact ih (model.configureRelation id)
      · rw [if_neg hservice, List.filter_cons_of_neg hservice]
        exact ih model

/-- Linking services records the links of what is linked meanwhile, all the services included. -/
theorem linking_linkServices (model : ServiceModel) (ids : List TypeId)
    (hnodup : model.relations.unlinked.Nodup) :
    Relations.Linking model.graph model.relations (model.linkServices ids).relations ∧
      ∀ id ∈ ids, model.isService id = true →
        id ∉ (model.linkServices ids).relations.unlinked := by
  rw [relations_linkServices]
  obtain ⟨hlinking, hlinked⟩ := Relations.linking_linkAll model.graph model.relations
    (ids.filter model.isService) hnodup
  exact ⟨hlinking, fun id hid hservice => hlinked id (List.mem_filter.mpr ⟨hid, hservice⟩)⟩

/-! ## The check of services -/

/-- The contract of a type, if it is a service. -/
def contract? (model : ServiceModel) (id : TypeId) : Option Contract :=
  if model.isService id then some (model.graph.contract id) else none

/-- The contracts of the services among types. -/
def contractsAmong (model : ServiceModel) (ids : List TypeId) : List (TypeId × Contract) :=
  ids.filterMap fun id => (model.contract? id).map fun contract => (id, contract)

/-- What the check of types reports, when all services extend the base interface. -/
def checkDiagnostics (model : ServiceModel) (ids : List TypeId) : List Diagnostic :=
  (ids.filter model.isService).flatMap model.graph.serviceDiagnostics

/-- What the check of types reports besides missing base interfaces is not fatal. -/
theorem checkDiagnostics_not_fatal {diagnostic : Diagnostic}
    (h : diagnostic ∈ model.checkDiagnostics ids) : diagnostic.isFatal = false := by
  obtain ⟨id, _, hid⟩ := List.mem_flatMap.mp h
  exact TypeGraph.serviceDiagnostics_not_fatal hid

/-- The model when types have been checked whose services all extend the base interface. -/
def checkedOver (model : ServiceModel) (ids : List TypeId) : ServiceModel :=
  { model with
      checked := model.checked ++ ids
      contracts := model.contracts ++ model.contractsAmong ids }

/-- Types that are checked one after another are checked together. -/
theorem checkedOver_checkedOver (model : ServiceModel) (ids more : List TypeId) :
    (model.checkedOver ids).checkedOver more = model.checkedOver (ids ++ more) := by
  simp only [checkedOver, contractsAmong, List.append_assoc, List.filterMap_append]
  rfl

/-- A type that is not among those just checked is as new as it was. -/
theorem notMem_checkedOver_singleton {other : TypeId} (hnew : other ∉ model.checked)
    (hne : other ≠ id) : other ∉ (model.checkedOver [id]).checked := by
  simp [checkedOver, hnew, hne]

/-- The check of a type that is not a service without the base interface. -/
theorem check_eq (hnew : id ∉ model.checked) (hlog : log.isAborted = false)
    (hbase : model.isService id = true → model.graph.extendsBase id = true) :
    model.check log id =
      (model.checkedOver [id], log.recordAll (model.checkDiagnostics [id])) := by
  rw [check_of_notMem hnew]
  by_cases hservice : model.isService id = true
  · simp [addedContracts, hservice, hbase hservice, hlog, contractsAmong, contract?,
      checkDiagnostics, TypeGraph.contract, TypeGraph.reports, checkedOver]
  · simp [addedContracts, hservice, contractsAmong, contract?, checkDiagnostics, checkedOver]

/-- The check of types whose services all extend the base interface. -/
theorem checkAll_eq (hnodup : ids.Nodup) (hnew : ∀ id ∈ ids, id ∉ model.checked)
    (hlog : log.isAborted = false)
    (hbase : ∀ id ∈ ids, model.isService id = true → model.graph.extendsBase id = true) :
    model.checkAll log ids =
      (model.checkedOver ids, log.recordAll (model.checkDiagnostics ids)) := by
  induction ids generalizing model log with
  | nil => simp [checkAll, contractsAmong, checkDiagnostics, checkedOver]
  | cons id ids ih =>
      obtain ⟨hid, hrest⟩ := List.nodup_cons.mp hnodup
      have hstep := check_eq (hnew id List.mem_cons_self) hlog (hbase id List.mem_cons_self)
      have hquiet : (log.recordAll (model.checkDiagnostics [id])).isAborted = false := by
        rw [DiagnosticLog.isAborted_recordAll_of_not_fatal fun _ => checkDiagnostics_not_fatal,
          hlog]
      have hlater :=
        @ih (model.checkedOver [id]) (log.recordAll (model.checkDiagnostics [id])) hrest
        (fun other hother =>
          notMem_checkedOver_singleton (hnew other (List.mem_cons_of_mem _ hother))
          (fun heq => hid (heq ▸ hother)))
        hquiet
        (fun other hother => hbase other (List.mem_cons_of_mem _ hother))
      show (model.check log id).1.checkAll (model.check log id).2 ids = _
      rw [hstep]
      refine hlater.trans ?_
      rw [checkedOver_checkedOver, ← DiagnosticLog.recordAll_append]
      show _ = (_, log.recordAll (model.checkDiagnostics ([id] ++ ids)))
      simp only [checkDiagnostics, List.filter_append, List.flatMap_append]
      rfl

/-! ## What checks report -/

/-- The check of types records the reports of the services among them. -/
theorem checkAll_snd_eq (hnodup : ids.Nodup) (hnew : ∀ id ∈ ids, id ∉ model.checked) :
    (model.checkAll log ids).2 =
      log.recordAll ((ids.filter model.isService).flatMap model.graph.reports) := by
  induction ids generalizing model log with
  | nil => rfl
  | cons id ids ih =>
      obtain ⟨hid, hrest⟩ := List.nodup_cons.mp hnodup
      obtain ⟨hgraph, hservices⟩ := check_fst_eq model log id
      have hisService : (model.check log id).1.isService = model.isService := by
        funext other
        rw [isService, isService, hservices]
      have hlater : ∀ other ∈ ids, other ∉ (model.check log id).1.checked := by
        intro other hother hchecked
        rcases mem_checked_check hchecked with hbefore | rfl
        · exact hnew other (List.mem_cons_of_mem _ hother) hbefore
        · exact hid hother
      show ((model.check log id).1.checkAll (model.check log id).2 ids).2 = _
      rw [ih hrest hlater, hgraph, hisService, check_of_notMem (hnew id List.mem_cons_self),
        ← DiagnosticLog.recordAll_append]
      by_cases hservice : model.isService id = true
      · simp [hservice]
      · simp [hservice]

/-- A check that reports nothing fatal has found the base interface at every service. -/
theorem extendsBase_of_checkAll (htied : log.Tied) (hnodup : ids.Nodup)
    (hnew : ∀ id ∈ ids, id ∉ model.checked) (hids : ∀ id ∈ ids, id < model.graph.size)
    (h : (model.checkAll log ids).2.isAborted = false) :
    ∀ id ∈ ids, model.isService id = true → model.graph.extendsBase id = true := by
  intro id hid hservice
  by_contra hmissing
  obtain ⟨node, hnode⟩ := TypeGraph.exists_node_iff.mpr (hids id hid)
  have hreport : ⟨.missingRadioService, node.declaration.location⟩ ∈
      (ids.filter model.isService).flatMap model.graph.reports := by
    refine List.mem_flatMap.mpr ⟨id, List.mem_filter.mpr ⟨hid, hservice⟩, ?_⟩
    simp [TypeGraph.reports, hmissing, TypeGraph.missingBase, hnode]
  have hfatal : (model.checkAll log ids).2.isAborted = true := by
    rw [checkAll_snd_eq hnodup hnew, (htied.recordAll _).isAborted_iff]
    exact ⟨_, DiagnosticLog.mem_recorded_recordAll.mpr (Or.inr hreport), rfl⟩
  rw [hfatal] at h
  cases h

/-! ## The whole preparation -/

/-- A table with at most one entry per key is looked up by asking for the entry of the key. -/
theorem lookup_filterMap {α : Type} (read : TypeId → Option α) (ids : List TypeId) (id : TypeId) :
    (ids.filterMap fun key => (read key).map fun value => (key, value)).lookup id =
      if id ∈ ids then read id else none := by
  induction ids with
  | nil => rfl
  | cons key ids ih =>
      rw [filterMap_cons_eq_append, List.lookup_append, ih]
      by_cases hkey : id = key
      · subst hkey
        cases read id <;> simp
      · cases hentry : read key with
        | none => simp [hkey]
        | some value => simp [hkey, List.lookup_cons, beq_eq_false_iff_ne.mpr hkey]

/-- The model of a graph when its markers have been read and its services have been linked. -/
def linkedModel (graph : TypeGraph) : ServiceModel :=
  { ofGraph graph with
      configured := graph.ids
      services := markedAmong graph graph.ids }.linkServices graph.ids

/-- The log when the markers of a graph have been read. -/
def markerLog (graph : TypeGraph) : DiagnosticLog :=
  DiagnosticLog.empty.recordAll (graph.ids.filterMap graph.markerDiagnostic?)

/-- Reading markers leaves a log whose parts belong together. -/
theorem tied_markerLog (graph : TypeGraph) : (markerLog graph).Tied :=
  DiagnosticLog.Tied.empty.recordAll _

/-- No marker aborts a preparation. -/
theorem isAborted_markerLog (graph : TypeGraph) : (markerLog graph).isAborted = false := by
  rw [markerLog, DiagnosticLog.isAborted_recordAll_of_not_fatal]
  · rfl
  · intro diagnostic hmem
    obtain ⟨id, _, hid⟩ := List.mem_filterMap.mp hmem
    exact TypeGraph.markerDiagnostic?_not_fatal hid

/-- All but relations is known of a linked model. -/
theorem linkedModel_eq (graph : TypeGraph) :
    linkedModel graph =
      { ofGraph graph with
          configured := graph.ids
          services := markedAmong graph graph.ids
          relations := (linkedModel graph).relations } :=
  linkServices_eq _ _

@[simp] theorem linkedModel_graph (graph : TypeGraph) : (linkedModel graph).graph = graph := by
  rw [linkedModel_eq]
  rfl

@[simp] theorem linkedModel_checked (graph : TypeGraph) : (linkedModel graph).checked = [] := by
  rw [linkedModel_eq]
  rfl

@[simp] theorem linkedModel_contracts (graph : TypeGraph) : (linkedModel graph).contracts = [] := by
  rw [linkedModel_eq]
  rfl

/-- The services of a linked model are the marked types. -/
theorem linkedModel_services (graph : TypeGraph) (id : TypeId) :
    (linkedModel graph).services.lookup id = graph.serviceBound? id := by
  rw [linkedModel_eq]
  refine (lookup_filterMap graph.serviceBound? graph.ids id).trans ?_
  split
  · rfl
  · rename_i hnew
    rw [eq_comm, ← Option.not_isSome_iff_eq_none]
    exact fun h => hnew (TypeGraph.mem_ids.mpr (TypeGraph.lt_of_serviceBound? h))

/-- Whether a type is a service of a linked model. -/
theorem isService_linkedModel (graph : TypeGraph) (id : TypeId) :
    (linkedModel graph).isService id = (graph.serviceBound? id).isSome := by
  rw [isService, linkedModel_services]

/-- A preparation from scratch ends with the check of the linked model. -/
theorem prepare_ofGraph (graph : TypeGraph) :
    (ofGraph graph).prepare .empty =
      (let checked := (linkedModel graph).checkAll (markerLog graph).flush graph.ids
      ⟨checked.1, checked.2.flush, (markerLog graph).pending ++ checked.2.pending,
        if checked.2.isAborted then .aborted else .ready⟩) := by
  have hmarkers : (ofGraph graph).configureAll .empty graph.ids =
      ({ ofGraph graph with
          configured := graph.ids
          services := markedAmong graph graph.ids }, markerLog graph) :=
    configureAll_eq List.nodup_range (fun _ _ => List.not_mem_nil)
  unfold prepare
  simp only [show (ofGraph graph).graph.ids = graph.ids from rfl, hmarkers, isAborted_markerLog,
    Bool.false_eq_true, if_false]
  rfl

/-- The check of a linked model whose marked types all extend the base interface. -/
theorem checkAll_linkedModel {graph : TypeGraph}
    (hbase : ∀ id, (graph.serviceBound? id).isSome = true → graph.extendsBase id = true) :
    (linkedModel graph).checkAll (markerLog graph).flush graph.ids =
      ((linkedModel graph).checkedOver graph.ids,
        (markerLog graph).flush.recordAll ((linkedModel graph).checkDiagnostics graph.ids)) := by
  refine checkAll_eq List.nodup_range (by simp) (isAborted_markerLog graph) ?_
  intro id _ hid
  rw [linkedModel_graph]
  exact hbase id ((isService_linkedModel graph id).symm.trans hid)

/-- A preparation from scratch is ready exactly if every marked type extends the base interface. -/
theorem outcome_prepare_eq_ready_iff (graph : TypeGraph) :
    ((ofGraph graph).prepare .empty).outcome = .ready ↔
      ∀ id, (graph.serviceBound? id).isSome = true → graph.extendsBase id = true := by
  have houtcome : ((ofGraph graph).prepare .empty).outcome = .ready ↔
      ((linkedModel graph).checkAll (markerLog graph).flush graph.ids).2.isAborted = false := by
    rw [prepare_ofGraph]
    cases h : ((linkedModel graph).checkAll (markerLog graph).flush graph.ids).2.isAborted <;>
      simp [h]
  rw [houtcome]
  constructor
  · intro hquiet id hmarked
    have hfound := extendsBase_of_checkAll (tied_markerLog graph).flush List.nodup_range (by simp)
      (by simp) hquiet id
      (TypeGraph.mem_ids.mpr (TypeGraph.lt_of_serviceBound? hmarked))
      ((isService_linkedModel graph id).trans hmarked)
    rwa [linkedModel_graph] at hfound
  · intro hbase
    rw [checkAll_linkedModel hbase,
      DiagnosticLog.isAborted_recordAll_of_not_fatal fun _ => checkDiagnostics_not_fatal]
    exact isAborted_markerLog graph

/-- How to see by evaluation that a preparation is ready: all marked types are declared to extend
the base interface. -/
theorem outcome_prepare_of_all {graph : TypeGraph}
    (h : (graph.ids.all fun id => (graph.serviceBound? id).isNone ||
      (graph.node? id).any fun node =>
        node.declaration.interfaces.any fun t => t.isDefinition baseInterfaceName 0) = true) :
    ((ofGraph graph).prepare .empty).outcome = .ready := by
  refine (outcome_prepare_eq_ready_iff graph).mpr ?_
  intro id hmarked
  have hid := List.all_eq_true.mp h id
    (TypeGraph.mem_ids.mpr (TypeGraph.lt_of_serviceBound? hmarked))
  have hnone : (graph.serviceBound? id).isNone = false := by
    rw [← Option.not_isSome, hmarked]
    rfl
  rw [hnone, Bool.false_or, Option.any_eq_true] at hid
  obtain ⟨node, hnode, hbase⟩ := hid
  exact TypeGraph.extendsBase_of_declared hnode hbase

/-! ## Models that are ready -/

/-- What is known of a model whose preparation is ready. -/
structure Analysed (model : ServiceModel) : Prop where
  graph : model.graph.WellFormed
  relations : model.relations.Consistent model.graph
  /-- The services are the marked types, each with the bound that its marker sets. -/
  services : ∀ id, model.services.lookup id = model.graph.serviceBound? id
  linked : ∀ id, model.isService id = true → model.relations.Linked model.graph id
  /-- The services have got contracts. -/
  contracts : ∀ id, model.contracts.lookup id = model.contract? id

/-- The services of a linked model are types of its graph. -/
theorem lt_of_isService_linkedModel {graph : TypeGraph} {id : TypeId}
    (h : (linkedModel graph).isService id = true) : id < graph.size :=
  TypeGraph.lt_of_serviceBound? ((isService_linkedModel graph id).symm.trans h)

/-- Linking the types of a graph and checking its services analyses it. -/
theorem analysed_checkedOver {graph : TypeGraph} (hgraph : graph.WellFormed) :
    ((linkedModel graph).checkedOver graph.ids).Analysed := by
  obtain ⟨hlinking, hlinked⟩ := linking_linkServices
    { ofGraph graph with
        configured := graph.ids
        services := markedAmong graph graph.ids } graph.ids List.nodup_range
  constructor
  case graph => rwa [checkedOver, linkedModel_graph]
  case relations =>
    rw [checkedOver, linkedModel_graph]
    exact hlinking.consistent hgraph
  case services =>
    intro id
    rw [checkedOver, linkedModel_graph]
    exact linkedModel_services graph id
  case linked =>
    intro id hid
    have hlt := lt_of_isService_linkedModel hid
    rw [checkedOver, linkedModel_graph]
    refine ⟨hlt, hlinked id (TypeGraph.mem_ids.mpr hlt) ?_⟩
    rw [linkedModel_eq] at hid
    exact hid
  case contracts =>
    intro id
    have hlookup := lookup_filterMap (linkedModel graph).contract? graph.ids id
    rw [checkedOver, linkedModel_contracts, List.nil_append, contractsAmong, hlookup]
    split
    · rfl
    · rename_i hnew
      have hid : ((linkedModel graph).checkedOver graph.ids).isService id ≠ true :=
        fun h => hnew (TypeGraph.mem_ids.mpr (lt_of_isService_linkedModel h))
      exact (if_neg hid).symm

/-- Where all marked types extend the base interface, a preparation delivers all that the checks of
the services report. -/
theorem mem_delivered_of_extendsBase {graph : TypeGraph} {id : TypeId} {diagnostic : Diagnostic}
    (hbase : ∀ id, (graph.serviceBound? id).isSome = true → graph.extendsBase id = true)
    (hid : (linkedModel graph).isService id = true)
    (hdiagnostic : diagnostic ∈ graph.serviceDiagnostics id) :
    diagnostic ∈ ((ofGraph graph).prepare .empty).delivered := by
  have hquiet : (markerLog graph).pending = (markerLog graph).recorded :=
    DiagnosticLog.pending_recordAll rfl
  rw [prepare_ofGraph, checkAll_linkedModel hbase]
  show diagnostic ∈ _ ++ _
  rw [DiagnosticLog.pending_append_pending hquiet, DiagnosticLog.mem_recorded_recordAll]
  refine Or.inr (List.mem_flatMap.mpr ⟨id, ?_, ?_⟩)
  · exact List.mem_filter.mpr ⟨TypeGraph.mem_ids.mpr (lt_of_isService_linkedModel hid), hid⟩
  · rwa [linkedModel_graph]

/-- A ready preparation of a graph that was built leaves an analysed model of that graph, and
delivers all that the checks of its services report. -/
theorem analysed_of_prepare {limit : Nat} {declarations : List Declaration} {graph : TypeGraph}
    (hbuild : TypeGraph.buildWithin limit declarations = .ok graph)
    (hready : ((ofGraph graph).prepare .empty).outcome = .ready) :
    ((ofGraph graph).prepare .empty).model.graph = graph ∧
      ((ofGraph graph).prepare .empty).model.Analysed ∧
      ∀ id, ((ofGraph graph).prepare .empty).model.isService id = true →
        ∀ diagnostic ∈ graph.serviceDiagnostics id,
          diagnostic ∈ ((ofGraph graph).prepare .empty).delivered := by
  have hbase := (outcome_prepare_eq_ready_iff graph).mp hready
  have hmodel : ((ofGraph graph).prepare .empty).model =
      (linkedModel graph).checkedOver graph.ids := by
    rw [prepare_ofGraph, checkAll_linkedModel hbase]
  rw [hmodel]
  refine ⟨linkedModel_graph graph, analysed_checkedOver (TypeGraph.wellFormed_of_build hbuild), ?_⟩
  exact fun id hid diagnostic hdiagnostic => mem_delivered_of_extendsBase hbase hid hdiagnostic

namespace Analysed

/-- A service is a type of the graph. -/
theorem lt_of_isService (h : model.Analysed) (hid : model.isService id = true) :
    id < model.graph.size :=
  (h.linked id hid).1

/-- A definition with instances is a type of the graph. -/
theorem lt_of_instances (h : model.Analysed) (hid : model.relations.instancesOf id ≠ []) :
    id < model.graph.size := by
  obtain ⟨other, hother, rfl⟩ := h.relations.instancesOf_ne_nil_iff.mp hid
  exact h.graph.definition_lt hother.1

/-- The services are the types that a marker governs. -/
theorem isService_eq (h : model.Analysed) (id : TypeId) :
    model.isService id = (model.graph.serviceBound? id).isSome := by
  rw [isService, h.services]

/-- The methods of a service are those that the check of its candidates leaves. -/
theorem methods_eq (h : model.Analysed) (hid : model.isService id = true) :
    model.methods id = model.graph.serviceMethods id := by
  simp [methods, h.contracts, contract?, hid, TypeGraph.contract]

/-- The class name of a service is made of its own names. -/
theorem className_eq (h : model.Analysed) (hid : model.isService id = true) :
    model.className id = (model.graph.contract id).className := by
  simp [className, h.contracts, contract?, hid]

/-- Exactly the services have got a class name. -/
theorem className_eq_empty_iff (h : model.Analysed) :
    model.className id = "" ↔ model.isService id = false := by
  rw [className, h.contracts, contract?]
  split
  · rename_i hid
    obtain ⟨node, hnode⟩ := TypeGraph.exists_node_iff.mpr (h.lt_of_isService hid)
    simp [hid, hnode, TypeGraph.contract, Naming.brokerClassName_ne_empty]
  · rename_i hid
    simpa using hid

end Analysed

end ServiceModel

end RadioBroker
