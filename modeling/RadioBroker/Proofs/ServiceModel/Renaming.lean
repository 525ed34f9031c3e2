import RadioBroker.Proofs.ServiceModel.Counts
import RadioBroker.Proofs.ServiceModel.RenamedCandidates

/-!
# Preparations with other names for parameters

Giving the parameters of a definition other names changes the names in what a preparation reports,
and nothing else: it ends alike, reports as many problems of each kind, and offers methods of the
same names and kinds. That is so where no interface of a marked type is found, or missed, because of
how the parameters are called. It is not so in general: a generic interface is found under its
written form, and a base that is declared over a parameter with another name than the service's is
missed. -/

namespace RadioBroker.ParameterRenaming

open TypeGraph

variable {r : ParameterRenaming} {given : List Declaration} {built : TypeGraph} {id : TypeId}
  {node : TypeNode}

/-! ## Markers and checks after the renaming -/

/-- The same marker governs a type. -/
@[simp] theorem marker?_graph (r : ParameterRenaming) (built : TypeGraph) (id : TypeId) :
    (r.graph built).marker? id = built.marker? id := by
  have hattribute : ∀ declaration : Declaration,
      (r.declaration declaration).attribute? markerName = declaration.attribute? markerName :=
    fun _ => rfl
  have hclosed : ∀ declaration : Declaration,
      (r.declaration declaration).generics.isClosed = declaration.generics.isClosed := by
    intro declaration
    show (r.generics declaration).isClosed = _
    unfold ParameterRenaming.generics
    cases declaration.generics <;> rfl
  rw [marker?, node?_graph, marker?]
  cases built.node? id with
  | none => rfl
  | some node =>
      simp only [Option.map_some, Option.bind_eq_bind, Option.bind_some, ParameterRenaming.node,
        hattribute, hclosed, node?_graph]
      cases built.node? node.definition <;> rfl

@[simp] theorem serviceBound?_graph (r : ParameterRenaming) (built : TypeGraph) (id : TypeId) :
    (r.graph built).serviceBound? id = built.serviceBound? id := by
  rw [serviceBound?, marker?_graph, serviceBound?]

@[simp] theorem markerDiagnostic?_graph (r : ParameterRenaming) (built : TypeGraph) (id : TypeId) :
    (r.graph built).markerDiagnostic? id = built.markerDiagnostic? id := by
  rw [markerDiagnostic?, marker?_graph, markerDiagnostic?]

namespace ConsistentIn

/-- A type extends the base interface exactly if it did. -/
theorem extendsBase_graph (h : r.ConsistentIn given built) (hnode : built.node? id = some node)
    (hapart : ∀ t ∈ built.allInterfaces id, r.BaseApart built node.declaration t) :
    (r.graph built).extendsBase id = built.extendsBase id := by
  rw [extendsBase, h.allInterfaces_graph hnode hapart, extendsBase, List.any_map]
  congr 1
  funext t
  show (r.typeIn node.declaration t).isDefinition baseInterfaceName 0 = _
  unfold typeIn
  split
  · exact TypeExpr.isDefinition_renamed h.unknown (by simp [TypeExpr.knownNames]) t 0
  · rfl

/-- The verdicts on the candidates of a type. -/
theorem verdicts_graph (h : r.ConsistentIn given built) (hnode : built.node? id = some node)
    (hapart : ∀ t ∈ built.allInterfaces id, r.BaseApart built node.declaration t) :
    List.Forall₂ r.RenamedVerdict (built.verdicts id) ((r.graph built).verdicts id) :=
  h.judgeAll_rel .nil (h.candidates_graph hnode hapart)

/-- What is reported of the types around a type. -/
theorem parentDiagnostics_graph (h : r.ConsistentIn given built) (id : TypeId) :
    r.RenamedReports (built.parentDiagnostics id) ((r.graph built).parentDiagnostics id) := by
  rw [parentDiagnostics, parentDiagnostics, ancestors_graph]
  induction built.ancestors id with
  | nil => exact .nil
  | cons ancestor ancestors ih =>
      rw [filterMap_cons_eq_append, filterMap_cons_eq_append]
      refine .append ?_ ih
      rw [node?_graph]
      cases hnode : built.node? ancestor with
      | none => exact .nil
      | some node =>
          show r.RenamedReports _
            (Option.toList (if node.declaration.isPartial = true then _ else _))
          simp only
          split
          · exact .nil
          · exact ⟨rfl, List.forall_mem_singleton.mpr (List.forall_mem_singleton.mpr
              (h.fresh_of_node (List.mem_of_getElem? hnode)).untaken)⟩

/-- What the check of a type reports. -/
theorem reports_graph (h : r.ConsistentIn given built) (hnode : built.node? id = some node)
    (hapart : ∀ t ∈ built.allInterfaces id, r.BaseApart built node.declaration t) :
    r.RenamedReports (built.reports id) ((r.graph built).reports id) := by
  rw [reports, reports, h.extendsBase_graph hnode hapart]
  split
  · exact .append (h.parentDiagnostics_graph id)
      (renamedReports_of_verdicts (h.verdicts_graph hnode hapart))
  · rw [missingBase, missingBase, node?_graph, hnode]
    exact ⟨rfl, List.forall_mem_singleton.mpr (List.forall_mem_nil _)⟩

end ConsistentIn

/-! ## Preparations after the renaming -/

/-- Nothing depends on how the parameters of the definition are called: no type that is applied is
written like the definition, and no interface of a marked type is found, or missed, because of the
names of the parameters. -/
structure Apart (r : ParameterRenaming) (built : TypeGraph) : Prop where
  unapplied : r.Unapplied built.declarations
  bases : ∀ id node, built.node? id = some node → (built.serviceBound? id).isSome = true →
    ∀ t ∈ built.allInterfaces id, r.BaseApart built node.declaration t

/-- How to see by evaluation that nothing depends on the names of parameters. -/
theorem apart_of_all
    (hunapplied : (built.declarations.all fun declaration => (mentionedBy declaration).all fun t =>
      decide (t.display ≠ r.definition)) = true)
    (hbases : (built.ids.all fun id => (built.serviceBound? id).isNone ||
      (built.node? id).all fun node => (built.allInterfaces id).all fun t =>
        decide (t.display ≠ r.definition) &&
        decide ((r.typeIn node.declaration t).display ≠ r.renamed) &&
        (built.declared? t.display).all fun base =>
          (t :: base.declaration.interfaces ++
            base.declaration.methods.flatMap Method.parameters).all fun s =>
              decide (r.typeIn node.declaration s = s)) = true) : r.Apart built where
  unapplied declaration hmem t ht := of_decide_eq_true
    (List.all_eq_true.mp (List.all_eq_true.mp hunapplied declaration hmem) t ht)
  bases id node hnode hmarked t ht := by
    have hid := List.all_eq_true.mp hbases id (mem_ids.mpr (exists_node_iff.mp ⟨node, hnode⟩))
    have hnone : (built.serviceBound? id).isNone = false := by
      rw [← Option.not_isSome, hmarked]
      rfl
    rw [hnone, hnode, Bool.false_or] at hid
    have hall := List.all_eq_true.mp hid t ht
    simp only [Bool.and_eq_true, decide_eq_true_eq] at hall
    obtain ⟨⟨hbefore, hafter⟩, hdeclared⟩ := hall
    refine ⟨hbefore, hafter, fun base hbase s hs => ?_⟩
    rw [hbase] at hdeclared
    exact of_decide_eq_true (List.all_eq_true.mp hdeclared s hs)

/-- What the check of a marked type finds, before and after the renaming. -/
structure CheckedAlike (r : ParameterRenaming) (built : TypeGraph) (id : TypeId) : Prop where
  extendsBase : (r.graph built).extendsBase id = built.extendsBase id
  methods : ((r.graph built).serviceMethods id).map ServiceMethod.nameAndKind =
    (built.serviceMethods id).map ServiceMethod.nameAndKind
  reports : r.RenamedReports (built.reports id) ((r.graph built).reports id)

/-- The check of a marked type finds the same before and after the renaming. -/
theorem ConsistentIn.checkedAlike (h : r.ConsistentIn given built) (hapart : r.Apart built)
    (hmarked : (built.serviceBound? id).isSome = true) : r.CheckedAlike built id := by
  obtain ⟨node, hnode⟩ := exists_node_iff.mpr (lt_of_serviceBound? hmarked)
  have hbases := hapart.bases id node hnode hmarked
  exact ⟨h.extendsBase_graph hnode hbases, map_nameAndKind_eq (h.verdicts_graph hnode hbases),
    h.reports_graph hnode hbases⟩

open ServiceModel

/-- A model of a graph and one of the graph after the renaming that know the same. -/
structure AlikeModels (r : ParameterRenaming) (built : TypeGraph) (model image : ServiceModel) :
    Prop where
  graph : model.graph = built
  imageGraph : image.graph = r.graph built
  services : image.services = model.services
  checked : image.checked = model.checked
  contracts : List.Forall₂ (fun entry twin : TypeId × Contract => twin.1 = entry.1 ∧
      twin.2.methods.map ServiceMethod.nameAndKind = entry.2.methods.map ServiceMethod.nameAndKind)
    model.contracts image.contracts

variable {model image : ServiceModel} {log imageLog : DiagnosticLog}

/-- The same types are services. -/
theorem AlikeModels.isService_eq (h : r.AlikeModels built model image) (id : TypeId) :
    image.isService id = model.isService id := by
  rw [isService, h.services, isService]

/-- Alike models offer methods of the same names and kinds. -/
theorem AlikeModels.methods_eq (h : r.AlikeModels built model image) (id : TypeId) :
    (image.methods id).map ServiceMethod.nameAndKind =
      (model.methods id).map ServiceMethod.nameAndKind := by
  have hcontracts := h.contracts
  rw [methods, methods]
  generalize model.contracts = contracts at hcontracts ⊢
  generalize image.contracts = twins at hcontracts ⊢
  induction hcontracts with
  | nil => rfl
  | @cons entry twin _ _ hentry _ ih =>
      obtain ⟨hid, hmethods⟩ := hentry
      rw [List.lookup_cons, List.lookup_cons, hid]
      split
      · exact hmethods
      · exact ih

/-- A report is fatal exactly if it is after the renaming. -/
@[simp] theorem isFatal_diagnostic (r : ParameterRenaming) (diagnostic : Diagnostic) :
    (r.diagnostic diagnostic).isFatal = diagnostic.isFatal := by
  obtain ⟨problem, location⟩ := diagnostic
  cases problem <;> rfl

/-- Two logs of which one is aborted exactly if the other is, and whose parts belong together. -/
structure AlikeLogs (log image : DiagnosticLog) : Prop where
  tied : log.Tied
  imageTied : image.Tied
  isAborted : image.isAborted = log.isAborted

/-- Reports abort a log after the renaming exactly if they do before. -/
theorem RenamedReports.alikeLogs {reports images : List Diagnostic}
    (h : r.RenamedReports reports images) (hlogs : AlikeLogs log imageLog) :
    AlikeLogs (log.recordAll reports) (imageLog.recordAll images) where
  tied := hlogs.tied.recordAll _
  imageTied := hlogs.imageTied.recordAll _
  isAborted := by
    rw [hlogs.tied.isAborted_recordAll_eq, hlogs.imageTied.isAborted_recordAll_eq, hlogs.isAborted,
      h.eq_map, List.any_map]
    simp only [Function.comp_def, isFatal_diagnostic]

/-- The check of a type keeps models alike. -/
theorem AlikeModels.check (h : r.AlikeModels built model image) (hlogs : AlikeLogs log imageLog)
    (hchecked : model.isService id = true → r.CheckedAlike built id) :
    r.AlikeModels built (model.check log id).1 (image.check imageLog id).1 ∧
      AlikeLogs (model.check log id).2 (image.check imageLog id).2 := by
  have hisService := h.isService_eq id
  by_cases hnew : id ∈ model.checked
  · have hknown : id ∈ image.checked := h.checked ▸ hnew
    rw [check_of_mem hnew, check_of_mem hknown]
    exact ⟨h, hlogs⟩
  · have hnewImage : id ∉ image.checked := h.checked ▸ hnew
    rw [check_of_notMem hnew, check_of_notMem hnewImage, hisService]
    refine ⟨⟨h.graph, h.imageGraph, h.services, ?_, List.rel_append h.contracts ?_⟩, ?_⟩
    · show image.checked ++ [id] = model.checked ++ [id]
      rw [h.checked]
    · rw [addedContracts, addedContracts, hisService, h.graph, h.imageGraph]
      by_cases hservice : model.isService id = true
      · have hsame := hchecked hservice
        rw [hsame.extendsBase, hlogs.isAborted]
        split
        · refine .cons ⟨rfl, ?_⟩ .nil
          show (if log.isAborted then [] else _ : List ServiceMethod).map _ =
            (if log.isAborted then [] else _ : List ServiceMethod).map _
          split
          · rfl
          · exact hsame.methods
        · exact .nil
      · simp [hservice]
    · split
      · rename_i hservice
        rw [h.graph, h.imageGraph]
        exact (hchecked hservice).reports.alikeLogs hlogs
      · exact hlogs

/-- The check of types keeps models alike. -/
theorem AlikeModels.checkAll (h : r.AlikeModels built model image) (hlogs : AlikeLogs log imageLog)
    (hchecked : ∀ id, model.isService id = true → r.CheckedAlike built id) (ids : List TypeId) :
    r.AlikeModels built (model.checkAll log ids).1 (image.checkAll imageLog ids).1 := by
  induction ids generalizing model image log imageLog with
  | nil => exact h
  | cons id ids ih =>
      obtain ⟨hmodels, haborted⟩ := h.check hlogs (hchecked id)
      have hservices : ∀ other, (model.check log id).1.isService other = model.isService other :=
        fun other => by rw [isService, (check_fst_eq model log id).2, isService]
      exact ih hmodels haborted fun other hother =>
        hchecked other ((hservices other).symm.trans hother)

/-- The same services are linked. -/
theorem alikeModels_linkedModel (r : ParameterRenaming) (built : TypeGraph) :
    r.AlikeModels built (linkedModel built) (linkedModel (r.graph built)) where
  graph := linkedModel_graph built
  imageGraph := linkedModel_graph _
  services := by
    rw [linkedModel_eq, linkedModel_eq built]
    simp only [markedAmong, ids_graph, serviceBound?_graph]
  checked := by rw [linkedModel_checked, linkedModel_checked]
  contracts := by
    rw [linkedModel_contracts, linkedModel_contracts]
    exact .nil

/-- The same bounds on links are reported. -/
theorem markerLog_graph (r : ParameterRenaming) (built : TypeGraph) :
    markerLog (r.graph built) = markerLog built := by
  simp only [markerLog, ids_graph, markerDiagnostic?_graph]

/-- What is reported of the markers of a graph mentions no type. -/
theorem renamedReports_markerLog (r : ParameterRenaming) (built : TypeGraph) :
    r.RenamedReports (markerLog built).recorded (markerLog built).recorded := by
  have hmarker : ∀ diagnostic ∈ (markerLog built).recorded,
      ∃ found location, diagnostic = ⟨.invalidMaxLinks found, location⟩ := by
    intro diagnostic hmem
    rcases DiagnosticLog.mem_recorded_recordAll.mp hmem with hnever | hmarker
    · cases hnever
    · obtain ⟨id, _, hid⟩ := List.mem_filterMap.mp hmarker
      exact exists_of_markerDiagnostic? hid
  constructor
  case eq_map =>
    refine (List.map_id _).symm.trans (List.map_congr_left fun diagnostic hmem => ?_)
    obtain ⟨_, _, rfl⟩ := hmarker diagnostic hmem
    rfl
  case untaken =>
    intro diagnostic hmem
    obtain ⟨_, _, rfl⟩ := hmarker diagnostic hmem
    exact nofun

namespace ConsistentIn

/-- What the checks of marked types report. -/
theorem flatMap_reports_graph (h : r.ConsistentIn given built) (hapart : r.Apart built) :
    r.RenamedReports
      ((built.ids.filter fun id => (built.serviceBound? id).isSome).flatMap built.reports)
      ((built.ids.filter fun id => (built.serviceBound? id).isSome).flatMap
        (r.graph built).reports) := by
  have hmarked : ∀ id ∈ built.ids.filter fun id => (built.serviceBound? id).isSome,
      (built.serviceBound? id).isSome = true := fun id hid => (List.mem_filter.mp hid).2
  generalize (built.ids.filter fun id => (built.serviceBound? id).isSome) = ids at hmarked ⊢
  induction ids with
  | nil => exact .nil
  | cons id ids ih =>
      obtain ⟨hid, hrest⟩ := List.forall_mem_cons.mp hmarked
      exact .append (h.checkedAlike hapart hid).reports (ih hrest)

/-- What a preparation delivers is what it delivered before, with the new name. -/
theorem delivered_graph (h : r.ConsistentIn given built) (hapart : r.Apart built) :
    ((ofGraph (r.graph built)).prepare .empty).delivered =
      ((ofGraph built).prepare .empty).delivered.map r.diagnostic := by
  have hmarkers := renamedReports_markerLog r built
  have hreports := h.flatMap_reports_graph hapart
  have huntaken := (hmarkers.append hreports).untaken
  rw [delivered_eq, delivered_eq, ids_graph, markerLog_graph]
  simp only [serviceBound?_graph]
  rw [hreports.eq_map]
  exact DiagnosticLog.recorded_recordAll_map hmarkers.eq_map fun first hfirst second hsecond =>
    diagnostic_injective (huntaken first hfirst) (huntaken second hsecond)

/-- A preparation ends as it did before. -/
theorem outcome_graph (h : r.ConsistentIn given built) (hapart : r.Apart built) :
    ((ofGraph (r.graph built)).prepare .empty).outcome =
      ((ofGraph built).prepare .empty).outcome := by
  have hready : ((ofGraph (r.graph built)).prepare .empty).outcome = .ready ↔
      ((ofGraph built).prepare .empty).outcome = .ready := by
    rw [outcome_prepare_eq_ready_iff, outcome_prepare_eq_ready_iff]
    refine forall_congr' fun id => ?_
    rw [serviceBound?_graph]
    exact imp_congr_right fun hmarked => by rw [(h.checkedAlike hapart hmarked).extendsBase]
  cases hbefore : ((ofGraph built).prepare .empty).outcome <;>
    cases hafter : ((ofGraph (r.graph built)).prepare .empty).outcome <;>
    simp_all

/-- A preparation leaves models that know the same. -/
theorem alikeModels_prepare (h : r.ConsistentIn given built) (hapart : r.Apart built) :
    r.AlikeModels built ((ofGraph built).prepare .empty).model
      ((ofGraph (r.graph built)).prepare .empty).model := by
  rw [prepare_ofGraph, prepare_ofGraph, ids_graph, markerLog_graph]
  have hflushed := (tied_markerLog built).flush
  refine (alikeModels_linkedModel r built).checkAll ⟨hflushed, hflushed, rfl⟩
    (fun id hservice => ?_) built.ids
  rw [isService_linkedModel] at hservice
  exact h.checkedAlike hapart hservice

end ConsistentIn

/-- What has to be the same for the names of parameters not to matter. -/
structure AnalysedAlike (r : ParameterRenaming) (before after : TypeGraph) : Prop where
  size : after.size = before.size
  fullName : ∀ id < before.size, after.fullName id = r.fullName (before.fullName id)
  outcome : ((ofGraph after).prepare .empty).outcome = ((ofGraph before).prepare .empty).outcome
  /-- There are as many reports under each number. -/
  reported : ∀ code, (reportedAs ((ofGraph after).prepare .empty).delivered code).length =
    (reportedAs ((ofGraph before).prepare .empty).delivered code).length
  /-- Methods of the same names and kinds are offered. -/
  methods :
    ∀ id, (((ofGraph after).prepare .empty).model.methods id).map ServiceMethod.nameAndKind =
    (((ofGraph before).prepare .empty).model.methods id).map ServiceMethod.nameAndKind

/-- The names of parameters do not matter, where no type is found, or missed, because of them: after
a renaming declarations are built as before, and their preparation ends alike, reports as many
problems under each number and offers methods of the same names and kinds. -/
theorem analysedAlike_of_consistent (hbuild : build given = .ok built) (hr : r.Consistent given)
    (hapart : r.Apart built) :
    build (given.map r.declaration) = .ok (r.graph built) ∧
      r.AnalysedAlike built (r.graph built) := by
  obtain ⟨hrenamed, hfresh⟩ := hr.build_map hbuild hapart.unapplied
  have h : r.ConsistentIn given built := ⟨hr, wellFormed_of_build hbuild, hfresh⟩
  refine ⟨hrenamed, ?_⟩
  constructor
  case size => exact size_graph r built
  case fullName => exact fun id hid => fullName_graph r hid
  case outcome => exact h.outcome_graph hapart
  case reported =>
    intro code
    rw [h.delivered_graph hapart, reportedAs, List.filter_map, List.length_map, reportedAs]
    simp only [Function.comp_def, code_diagnostic]
  case methods => exact (h.alikeModels_prepare hapart).methods_eq

/-- A service with a method over its parameter, whose base is the generic interface over `int`. -/
def appliedService : Declaration :=
  { (Declaration.ofPath .interface "N" "D").marked.openGeneric ["T"] with
    interfaces := [⟨baseInterfaceName, [], ""⟩, ⟨"N.IBase", [⟨"int", [], ""⟩], ""⟩]
    methods := [⟨"Put", ⟨"void", [], ""⟩, [⟨"T", [], ""⟩], none, {}⟩] }

/-- The graph of the generic interface, of this service and of what applies it. -/
def appliedServiceGraph : TypeGraph :=
  ⟨[⟨genericBase "T", none, 0⟩, ⟨appliedService, none, 1⟩, ⟨serviceUser, none, 2⟩,
    ⟨appliedService.closeOver ["T"] [⟨"int", [], ""⟩], none, 1⟩,
    ⟨(genericBase "T").closeOver ["T"] [⟨"int", [], ""⟩], none, 0⟩]⟩

/-- The parameter `T` of a definition is called `U`. -/
def callingU (head : String) : ParameterRenaming := ofHead head ["T"] fun _ => "U"

/-- Calling the only parameter `U` is consistent if `U` is used nowhere. -/
theorem consistent_callingU {head : String} (hhead : (TypeExpr.named head).WellFormed)
    (hdeclared : ∃ declaration ∈ given, declaration.fullName = (callingU head).definition)
    (hfresh : ∀ declaration ∈ given, (callingU head).Fresh declaration) :
    (callingU head).Consistent given := by
  have hunknown : TypeExpr.Unknown ["T"] fun _ => "U" := by
    unfold TypeExpr.Unknown
    decide
  refine consistent_ofHead hhead (by decide) ⟨by decide, fun _ _ => ?_⟩ hunknown hdeclared hfresh
  exact @TypeExpr.wellFormed_of_parse "U" _ (by decide +kernel)

/-- The service offers its own method and that of its base, however its parameter is called. -/
theorem analysedAlike_appliedService :
    build [genericBase "T", appliedService, serviceUser] = .ok appliedServiceGraph ∧
      (callingU "N.D").Consistent [genericBase "T", appliedService, serviceUser] ∧
      (callingU "N.D").Apart appliedServiceGraph ∧
      (((ofGraph appliedServiceGraph).prepare .empty).model.methods 1).map
        ServiceMethod.nameAndKind = [("Put", .void), ("Get", .singleResult)] ∧
      build ([genericBase "T", appliedService, serviceUser].map (callingU "N.D").declaration) =
        .ok ((callingU "N.D").graph appliedServiceGraph) ∧
      (callingU "N.D").AnalysedAlike appliedServiceGraph
        ((callingU "N.D").graph appliedServiceGraph) := by
  have hbuild : build [genericBase "T", appliedService, serviceUser] = .ok appliedServiceGraph := by
    rfl
  have hconsistent : (callingU "N.D").Consistent [genericBase "T", appliedService, serviceUser] :=
    consistent_callingU (@TypeExpr.wellFormed_of_parse "N.D" _ (by decide +kernel))
      ⟨appliedService, by simp, by decide⟩ (fresh_of_all (by decide +kernel))
  have hapart : (callingU "N.D").Apart appliedServiceGraph :=
    apart_of_all (by decide +kernel) (by decide +kernel)
  obtain ⟨hmethods, _⟩ := @methods_of_quiet _ _ hbuild (outcome_prepare_of_all (by decide))
    (delivered_eq_nil_of_all (by decide +kernel)) 1 (by rfl)
  refine ⟨hbuild, hconsistent, hapart, ?_, analysedAlike_of_consistent hbuild hconsistent hapart⟩
  rw [hmethods]
  decide +kernel

/-! ## A parameter that is called like that of a base -/

/-- A service that extends the generic interface over its own parameter finds it only if the
parameter of the interface is called alike: its method is lost when that parameter gets another
name. -/
theorem methods_lost_callingU :
    (callingU "N.IBase").Consistent [genericBase "T", genericService, serviceUser] ∧
      build [genericBase "T", genericService, serviceUser] = .ok (genericServiceGraph "T") ∧
      (genericServiceGraph "T").Acyclic ∧
      build ([genericBase "T", genericService, serviceUser].map (callingU "N.IBase").declaration) =
        .ok (genericServiceGraph "U") ∧
      ¬ (callingU "N.IBase").AnalysedAlike (genericServiceGraph "T") (genericServiceGraph "U") := by
  have hconsistent : (callingU "N.IBase").Consistent
      [genericBase "T", genericService, serviceUser] :=
    consistent_callingU (@TypeExpr.wellFormed_of_parse "N.IBase" _ (by decide +kernel))
      ⟨genericBase "T", List.mem_cons_self, by decide⟩ (fresh_of_all (by decide +kernel))
  have hbuild : build [genericBase "T", genericService, serviceUser] =
      .ok (genericServiceGraph "T") := by rfl
  have hrenamed : build ([genericBase "T", genericService, serviceUser].map
      (callingU "N.IBase").declaration) = .ok (genericServiceGraph "U") := by rfl
  refine ⟨hconsistent, hbuild, acyclic_of_lt (by decide), hrenamed, fun halike => ?_⟩
  obtain ⟨hmethods, _⟩ := @methods_of_quiet _ _ hbuild (outcome_prepare_of_all (by decide))
    (delivered_eq_nil_of_all (by decide +kernel)) 1 (by rfl)
  obtain ⟨hrenamedMethods, _⟩ := @methods_of_quiet _ _ hrenamed (outcome_prepare_of_all (by decide))
    (delivered_eq_nil_of_all (by decide +kernel)) 1 (by rfl)
  have hone : ((genericServiceGraph "T").candidates 1).length = 1 := by decide +kernel
  have hnone : ((genericServiceGraph "U").candidates 1).length = 0 := by decide +kernel
  have hlength := congrArg List.length (halike.methods 1)
  simp only [hmethods, hrenamedMethods, List.length_map, hone, hnone] at hlength
  cases hlength

end RadioBroker.ParameterRenaming
