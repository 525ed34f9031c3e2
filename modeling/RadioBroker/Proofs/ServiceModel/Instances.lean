import RadioBroker.Declaration.Builder
import RadioBroker.Proofs.ServiceModel.Reports
import RadioBroker.Proofs.TypeExpr.Substitution
import RadioBroker.Proofs.TypeGraph.ByName

/-!
# Definitions and what applies them

All types that apply a definition share its broker, so they have to offer the same methods as the
definition does, with the arguments in place of the parameters. That holds where the arguments lead
from each base of the definition to a base that is declared likewise. It does not hold in general:
a base is found by its written form, and the form with arguments may be declared where the form with
parameters is not.
-/

namespace RadioBroker

variable {parameters : List String} {arguments : List TypeExpr}

/-! ## Declarations with arguments in place of parameters -/

/-- A method that is another one with arguments in place of parameters. -/
structure Method.Closes (parameters : List String) (arguments : List TypeExpr)
    (method closed : Method) : Prop where
  name : closed.name = method.name
  returnType : closed.returnType = method.returnType.substitute parameters arguments
  parameters : closed.parameters = method.parameters.map (TypeExpr.substitute parameters arguments)

/-- A method to offer that is another one with arguments in place of parameters. -/
structure ServiceMethod.Closes (parameters : List String) (arguments : List TypeExpr)
    (method closed : ServiceMethod) : Prop where
  name : closed.name = method.name
  kind : closed.kind = method.kind
  returnType : closed.returnType = method.returnType.substitute parameters arguments
  result : closed.result = method.result.map (TypeExpr.substitute parameters arguments)
  parameters : closed.parameters = method.parameters.map (TypeExpr.substitute parameters arguments)

/-- The methods that a type declares itself. -/
def Declaration.ownMethods (declaration : Declaration) : List Method :=
  declaration.methods.filter declaration.owns

/-- A declaration that extends and declares what another one does, with arguments in place of
parameters. -/
structure Declaration.Closes (parameters : List String) (arguments : List TypeExpr)
    (declaration closed : Declaration) : Prop where
  interfaces : closed.interfaces =
    declaration.interfaces.map (TypeExpr.substitute parameters arguments)
  methods : List.Forall₂ (Method.Closes parameters arguments) declaration.ownMethods
    closed.ownMethods

/-- What applies a definition owns all that it lists, whatever the definition owns. -/
theorem Declaration.owns_of_mem_closeOver {definition : Declaration} {copy : Method}
    (h : copy ∈ (definition.closeOver parameters arguments).methods) :
    (definition.closeOver parameters arguments).owns copy = true := by
  obtain ⟨method, _, rfl⟩ := List.mem_map.mp h
  cases hdeclaredIn : method.declaredIn <;>
    simp [owns, Method.close, closeOver, hdeclaredIn]

/-- A definition that lists no methods of other types is applied as a whole. -/
theorem Declaration.closes_closeOver {declaration : Declaration}
    (howned : ∀ method ∈ declaration.methods, declaration.owns method = true) :
    declaration.Closes parameters arguments (declaration.closeOver parameters arguments) where
  interfaces := rfl
  methods := by
    have hall : (declaration.closeOver parameters arguments).ownMethods =
        declaration.methods.map fun method =>
          method.close parameters arguments (declaration.closedName arguments) :=
      List.filter_eq_self.mpr fun _ => owns_of_mem_closeOver
    rw [hall, ownMethods, List.filter_eq_self.mpr howned, List.forall₂_map_right_iff,
      List.forall₂_same]
    intro method _
    exact ⟨rfl, rfl, rfl⟩

/-! ## Candidates with arguments in place of parameters -/

namespace Candidate

/-- Candidates of which none is reported are all offered. -/
theorem judgeAll_of_quiet {earlier candidates : List Candidate}
    (h : (judgeAll earlier candidates).filterMap Verdict.diagnostic? = []) :
    judgeAll earlier candidates =
      candidates.map (fun candidate => .accepted candidate.serviceMethod) ∧
      ∀ candidate ∈ candidates, candidate.Supported := by
  induction candidates generalizing earlier with
  | nil => exact ⟨rfl, nofun⟩
  | cons candidate candidates ih =>
      rw [judgeAll, filterMap_cons_eq_append, List.append_eq_nil_iff] at h
      obtain ⟨hfirst, hrest⟩ := h
      obtain ⟨hothers, hsupported⟩ := ih hrest
      have hnew : forerunner? earlier candidate = none := by
        cases hforerunner : forerunner? earlier candidate with
        | none => rfl
        | some first => simp [judge_of_some hforerunner, Verdict.diagnostic?] at hfirst
      have hkind : candidate.Supported := by
        by_contra hunsupported
        simp [judge_of_unsupported hnew hunsupported, Verdict.diagnostic?] at hfirst
      rw [judgeAll, judge_of_supported hnew hkind, hothers]
      exact ⟨rfl, List.forall_mem_cons.mpr ⟨hkind, hsupported⟩⟩

/-- What a candidate offers with arguments in place of parameters. -/
theorem closes_serviceMethod {candidate closed : Candidate} (hvoid : "void" ∉ parameters)
    (htask : taskName ∉ parameters) (hkind : candidate.Supported)
    (h : candidate.method.Closes parameters arguments closed.method) :
    candidate.serviceMethod.Closes parameters arguments closed.serviceMethod := by
  have hclassified := @TypeExpr.classify_substitute parameters arguments _ hvoid htask hkind
  rw [← h.returnType] at hclassified
  constructor
  case name => exact h.name
  case kind => exact (congrArg Classification.kind hclassified :)
  case returnType => exact h.returnType
  case result => exact (congrArg Classification.result hclassified :)
  case parameters => exact h.parameters

end Candidate

namespace TypeGraph

variable {graph : TypeGraph}

/-- The methods among candidates that a type declares are its own. -/
theorem map_method_declaredCandidates (graph : TypeGraph) (node : TypeNode) (interface : String) :
    (graph.declaredCandidates node interface).map Candidate.method =
      node.declaration.ownMethods := by
  have hfrom : ∀ (methods : List Method) (start : Nat),
      ((methods.zipIdx start).filterMap fun entry =>
          if node.declaration.owns entry.1 then
            some (Candidate.mk entry.1 interface node.declaration.fullName
              (graph.fullName node.definition) entry.2)
          else none).map Candidate.method = methods.filter node.declaration.owns := by
    intro methods start
    induction methods generalizing start with
    | nil => rfl
    | cons method methods ih =>
        rw [List.zipIdx_cons, filterMap_cons_eq_append, List.map_append, ih]
        by_cases howns : node.declaration.owns method = true <;> simp [howns]
  exact hfrom _ 0

/-- Each base of a type and the base that arguments make of it are declared alike, or not at all. -/
structure BasesClose (graph : TypeGraph) (parameters : List String) (arguments : List TypeExpr)
    (id : TypeId) : Prop where
  /-- Different bases stay different. -/
  distinct : ∀ s ∈ graph.allInterfaces id, ∀ t ∈ graph.allInterfaces id,
    s.substitute parameters arguments = t.substitute parameters arguments → s = t
  /-- A base is declared under its written form exactly if the other one is. -/
  declared : ∀ t ∈ graph.allInterfaces id,
    Option.Rel (fun base closed => base.declaration.Closes parameters arguments closed.declaration)
      (graph.declared? t.display)
      (graph.declared? (t.substitute parameters arguments).display)

/-- A base and the base that arguments make of it are both undeclared or declared alike. -/
theorem BasesClose.cases_declared {definition : TypeId} {t : TypeExpr}
    (h : graph.BasesClose parameters arguments definition)
    (ht : t ∈ graph.allInterfaces definition) :
    (graph.declared? t.display = none ∧
        graph.declared? (t.substitute parameters arguments).display = none) ∨
      ∃ base closed, graph.declared? t.display = some base ∧
        graph.declared? (t.substitute parameters arguments).display = some closed ∧
        base.declaration.Closes parameters arguments closed.declaration := by
  have hdeclared := h.declared t ht
  cases hbase : graph.declared? t.display <;>
    cases himage : graph.declared? (t.substitute parameters arguments).display <;>
    rw [hbase, himage] at hdeclared <;> cases hdeclared
  · exact Or.inl ⟨rfl, rfl⟩
  · rename_i hcloses
    exact Or.inr ⟨_, _, rfl, rfl, hcloses⟩

/-- The bases of a type with arguments in place of parameters. -/
theorem BasesClose.allInterfaces_eq {definition application : TypeId} {node closed : TypeNode}
    (h : graph.BasesClose parameters arguments definition)
    (hdefinition : graph.node? definition = some node)
    (happlication : graph.node? application = some closed)
    (hcloses : node.declaration.Closes parameters arguments closed.declaration) :
    graph.allInterfaces application =
      (graph.allInterfaces definition).map (TypeExpr.substitute parameters arguments) := by
  have hextends : ∀ t ∈ graph.allInterfaces definition,
      graph.extensionsOf (t.substitute parameters arguments) =
        (graph.extensionsOf t).map (TypeExpr.substitute parameters arguments) := by
    intro t ht
    unfold extensionsOf
    rcases h.cases_declared ht with ⟨hbase, himage⟩ | ⟨base, closed, hbase, himage, hbaseCloses⟩
    · rw [hbase, himage]
      rfl
    · rw [hbase, himage]
      exact hbaseCloses.interfaces
  have hmentioned : ∀ t ∈ graph.allInterfaces definition,
      (t.substitute parameters arguments ∈ graph.mentioned ↔ t ∈ graph.mentioned) := by
    intro t ht
    obtain ⟨hpool, hfrom⟩ := cases_of_mem_allInterfaces hdefinition ht
    refine iff_of_true ?_ hpool
    rcases hfrom with hdirect | ⟨s, hs, hext⟩
    · refine mem_mentioned_of_mem happlication ?_
      rw [hcloses.interfaces]
      exact List.mem_map_of_mem hdirect
    · refine mem_mentioned_of_extends (t := s.substitute parameters arguments) ?_
      rw [hextends s hs]
      exact List.mem_map_of_mem hext
  have hvisit := preorder_map hextends
    (fun t ht s hs => mem_allInterfaces_of_extends ht hs)
    (fun s t hs ht => h.distinct s hs t ht) hmentioned
    (fun t ht => mem_allInterfaces_of_mem hdefinition ht)
  rw [allInterfaces, happlication]
  dsimp only
  rw [hcloses.interfaces, hvisit]
  conv_rhs => rw [allInterfaces, hdefinition]

/-- The methods that a mentioned interface declares itself. -/
def methodsOf (graph : TypeGraph) (t : TypeExpr) : List Method :=
  (graph.inheritedCandidates t).map Candidate.method

/-- The methods of the candidates for a broker: those of the type and those of its interfaces. -/
theorem map_method_candidates {id : TypeId} {node : TypeNode} (hnode : graph.node? id = some node) :
    (graph.candidates id).map Candidate.method =
      node.declaration.ownMethods ++ (graph.allInterfaces id).flatMap graph.methodsOf := by
  rw [candidates, hnode]
  simp only [List.map_append, map_method_declaredCandidates, List.map_flatMap]
  rfl

/-- Bases that are declared alike declare the same methods. -/
theorem BasesClose.methodsOf {definition : TypeId} {t : TypeExpr}
    (h : graph.BasesClose parameters arguments definition)
    (ht : t ∈ graph.allInterfaces definition) :
    List.Forall₂ (Method.Closes parameters arguments) (graph.methodsOf t)
      (graph.methodsOf (t.substitute parameters arguments)) := by
  unfold TypeGraph.methodsOf inheritedCandidates
  rcases h.cases_declared ht with ⟨hbase, himage⟩ | ⟨base, closed, hbase, himage, hbaseCloses⟩
  · rw [hbase, himage]
    exact .nil
  · rw [hbase, himage]
    simp only [map_method_declaredCandidates]
    exact hbaseCloses.methods

/-- The candidates of a type that applies a definition are those of the definition. -/
theorem BasesClose.candidates {definition application : TypeId} {node closed : TypeNode}
    (h : graph.BasesClose parameters arguments definition)
    (hdefinition : graph.node? definition = some node)
    (happlication : graph.node? application = some closed)
    (hcloses : node.declaration.Closes parameters arguments closed.declaration) :
    List.Forall₂ (fun candidate closed =>
      candidate.method.Closes parameters arguments closed.method)
      (graph.candidates definition) (graph.candidates application) := by
  have hinherited : List.Forall₂ (Method.Closes parameters arguments)
      ((graph.allInterfaces definition).flatMap graph.methodsOf)
      ((graph.allInterfaces application).flatMap graph.methodsOf) := by
    rw [h.allInterfaces_eq hdefinition happlication hcloses, List.flatMap_map]
    refine List.rel_flatten ?_
    rw [List.forall₂_map_left_iff, List.forall₂_map_right_iff, List.forall₂_same]
    exact fun t ht => h.methodsOf ht
  have hmethods : List.Forall₂ (Method.Closes parameters arguments) (_ ++ _) (_ ++ _) :=
    List.rel_append hcloses.methods hinherited
  rw [← map_method_candidates hdefinition, ← map_method_candidates happlication] at hmethods
  rwa [List.forall₂_map_left_iff, List.forall₂_map_right_iff] at hmethods

end TypeGraph

namespace ServiceModel

variable {declarations : List Declaration} {graph : TypeGraph}

/-- A type that applies a definition as a whole has the marker of the definition. -/
theorem marker?_closeOver {limit : Nat}
    (hbuild : TypeGraph.buildWithin limit declarations = .ok graph)
    {definition application : TypeId} {node closed : TypeNode}
    (hdefinition : graph.node? definition = some node)
    (hopen : node.declaration.generics = .openOver parameters)
    (happlication : graph.node? application = some closed)
    (hcloses : closed.declaration = node.declaration.closeOver parameters arguments) :
    graph.marker? application = graph.marker? definition := by
  have hgraph := TypeGraph.wellFormed_of_build hbuild
  have hname : graph.fullName closed.definition = graph.fullName definition := by
    rw [TypeGraph.definition_of_build hbuild happlication, hcloses,
      TypeGraph.fullName_of_node hdefinition]
    rfl
  have hlt : closed.definition < graph.size := by
    have hbelow := hgraph.definition_lt (TypeGraph.exists_node_iff.mp ⟨closed, happlication⟩)
    rwa [TypeGraph.definitionOf, happlication] at hbelow
  have hfound : closed.definition = definition :=
    hgraph.fullName_inj hlt (TypeGraph.exists_node_iff.mp ⟨node, hdefinition⟩) hname
  have hbare : closed.declaration.attribute? markerName = none := by
    rw [hcloses]
    rfl
  have hisClosed : closed.declaration.generics.isClosed = true := by
    rw [hcloses]
    rfl
  have hisOpen : node.declaration.generics.isClosed = false := by
    rw [hopen]
    rfl
  simp only [TypeGraph.marker?, happlication, hdefinition, hfound, hbare, hisClosed, hisOpen,
    Option.bind_eq_bind, Option.bind_some, if_true, Bool.false_eq_true, if_false]
  cases node.declaration.attribute? markerName <;> rfl

/-- Where nothing is reported, a service offers all its candidates, and all are supported. -/
theorem methods_of_quiet (hbuild : TypeGraph.build declarations = .ok graph)
    (hready : ((ofGraph graph).prepare .empty).outcome = .ready)
    (hquiet : ((ofGraph graph).prepare .empty).delivered = []) {id : TypeId}
    (hservice : (graph.serviceBound? id).isSome = true) :
    ((ofGraph graph).prepare .empty).model.methods id =
        (graph.candidates id).map Candidate.serviceMethod ∧
      ∀ candidate ∈ graph.candidates id, candidate.Supported := by
  obtain ⟨hgraph, h, hdelivered⟩ := analysed_of_prepare hbuild hready
  have hisService : ((ofGraph graph).prepare .empty).model.isService id = true := by
    rw [h.isService_eq, hgraph, hservice]
  have hnothing : (graph.verdicts id).filterMap Candidate.Verdict.diagnostic? = [] := by
    refine List.eq_nil_iff_forall_not_mem.mpr ?_
    intro diagnostic hmem
    have hreported := hdelivered id hisService diagnostic (List.mem_append_right _ hmem)
    rw [hquiet] at hreported
    cases hreported
  obtain ⟨hverdicts, hsupported⟩ := Candidate.judgeAll_of_quiet hnothing
  refine ⟨?_, hsupported⟩
  rw [h.methods_eq hisService, hgraph, TypeGraph.serviceMethods, TypeGraph.verdicts, hverdicts,
    List.filterMap_map]
  exact congrFun (List.filterMap_eq_map (f := Candidate.serviceMethod)) _

/-- A type that applies a definition offers the methods of the definition with its arguments in
place of the parameters, if the bases of the definition become bases that are declared alike. It is
assumed that nothing is reported, that the definition lists methods of its own only and that no
parameter is called like a return type with a meaning. -/
theorem methods_closeOver (hbuild : TypeGraph.build declarations = .ok graph)
    (hready : ((ofGraph graph).prepare .empty).outcome = .ready)
    (hquiet : ((ofGraph graph).prepare .empty).delivered = [])
    {definition application : TypeId} {node closed : TypeNode}
    (hdefinition : graph.node? definition = some node)
    (hservice : ((ofGraph graph).prepare .empty).model.isService definition = true)
    (hopen : node.declaration.generics = .openOver parameters)
    (happlication : graph.node? application = some closed)
    (hcloses : node.declaration.close arguments = .ok closed.declaration)
    (hvoid : "void" ∉ parameters) (htask : taskName ∉ parameters)
    (howned : ∀ method ∈ node.declaration.methods, node.declaration.owns method = true)
    (hbases : graph.BasesClose parameters arguments definition) :
    List.Forall₂ (ServiceMethod.Closes parameters arguments)
      (((ofGraph graph).prepare .empty).model.methods definition)
      (((ofGraph graph).prepare .empty).model.methods application) := by
  obtain ⟨hgraph, h, _⟩ := analysed_of_prepare hbuild hready
  have hmarked : (graph.serviceBound? definition).isSome = true := by
    rw [← hservice, h.isService_eq, hgraph]
  obtain ⟨_, hparameters, _, hclosed⟩ := Declaration.close_eq_ok_iff.mp hcloses
  rw [hopen] at hparameters
  cases hparameters
  have hmarkedToo : (graph.serviceBound? application).isSome = true := by
    rw [TypeGraph.serviceBound?,
      marker?_closeOver hbuild hdefinition hopen happlication hclosed.symm]
    exact hmarked
  obtain ⟨hmethods, hsupported⟩ := methods_of_quiet hbuild hready hquiet hmarked
  obtain ⟨hmethodsToo, _⟩ := methods_of_quiet hbuild hready hquiet hmarkedToo
  have hdeclared : node.declaration.Closes parameters arguments closed.declaration :=
    hclosed ▸ Declaration.closes_closeOver howned
  have hcandidates := hbases.candidates hdefinition happlication hdeclared
  rw [hmethods, hmethodsToo, List.forall₂_map_left_iff, List.forall₂_map_right_iff]
  exact ((List.forall₂_and_left _ _).mpr ⟨hsupported, hcandidates⟩).imp
    fun _ _ hpair => Candidate.closes_serviceMethod hvoid htask hpair.1 hpair.2

/-- A generic interface with a method. -/
def genericBase (parameter : String) : Declaration :=
  { (Declaration.ofPath .interface "N" "IBase").openGeneric [parameter] with
    methods := [⟨"Get", ⟨radioResultName, [⟨parameter, [], ""⟩], ""⟩, [], none, {}⟩] }

/-- A service that extends the generic interface over its own parameter `T`. -/
def genericService : Declaration :=
  { (Declaration.ofPath .interface "N" "D").marked.openGeneric ["T"] with
    interfaces := [⟨baseInterfaceName, [], ""⟩, ⟨"N.IBase", [⟨"T", [], ""⟩], ""⟩] }

/-- A type that extends the service applied to `int`. -/
def serviceUser : Declaration :=
  { Declaration.ofPath .interface "N" "User" with
    interfaces := [⟨"N.D", [⟨"int", [], ""⟩], ""⟩] }

/-- The graph of these three declarations: the service and its base are applied to `int`. -/
def genericServiceGraph (parameter : String) : TypeGraph :=
  ⟨[⟨genericBase parameter, none, 0⟩, ⟨genericService, none, 1⟩, ⟨serviceUser, none, 2⟩,
    ⟨genericService.closeOver ["T"] [⟨"int", [], ""⟩], none, 1⟩,
    ⟨(genericBase parameter).closeOver [parameter] [⟨"int", [], ""⟩], none, 0⟩]⟩

/-- Where the base is declared over a parameter with another name than `T`, the service offers
nothing, but what applies it offers the method of the base. -/
theorem methods_renamedParameter :
    TypeGraph.build [genericBase "U", genericService, serviceUser] =
        .ok (genericServiceGraph "U") ∧
      ((ofGraph (genericServiceGraph "U")).prepare .empty).outcome = .ready ∧
      ((ofGraph (genericServiceGraph "U")).prepare .empty).delivered = [] ∧
      ((ofGraph (genericServiceGraph "U")).prepare .empty).model.isService 1 = true ∧
      ((genericServiceGraph "U").node? 3).map TypeNode.declaration =
        (genericService.close [⟨"int", [], ""⟩]).toOption ∧
      ¬ List.Forall₂ (ServiceMethod.Closes ["T"] [⟨"int", [], ""⟩])
        (((ofGraph (genericServiceGraph "U")).prepare .empty).model.methods 1)
        (((ofGraph (genericServiceGraph "U")).prepare .empty).model.methods 3) := by
  have hbuild : TypeGraph.build [genericBase "U", genericService, serviceUser] =
      .ok (genericServiceGraph "U") := by rfl
  have hready : ((ofGraph (genericServiceGraph "U")).prepare .empty).outcome = .ready :=
    outcome_prepare_of_all (by decide)
  have hquiet : ((ofGraph (genericServiceGraph "U")).prepare .empty).delivered = [] :=
    delivered_eq_nil_of_all (by decide +kernel)
  obtain ⟨hgraph, h, _⟩ := analysed_of_prepare hbuild hready
  refine ⟨hbuild, hready, hquiet, ?_, rfl, ?_⟩
  · rw [h.isService_eq, hgraph]
    rfl
  · obtain ⟨hmethods, _⟩ := @methods_of_quiet _ _ hbuild hready hquiet 1 (by rfl)
    obtain ⟨hmethodsToo, _⟩ := @methods_of_quiet _ _ hbuild hready hquiet 3 (by rfl)
    have hnone : ((genericServiceGraph "U").candidates 1).length = 0 := by decide +kernel
    have hone : ((genericServiceGraph "U").candidates 3).length = 1 := by decide +kernel
    intro hcloses
    have hlength := hcloses.length_eq
    rw [hmethods, hmethodsToo, List.length_map, List.length_map, hnone, hone] at hlength
    cases hlength

/-- Where the base is declared over a parameter called `T` as well, the method of the base is
offered by the service and by what applies it. -/
theorem methods_sameParameter :
    TypeGraph.build [genericBase "T", genericService, serviceUser] =
        .ok (genericServiceGraph "T") ∧
      ∃ method closed,
        ((ofGraph (genericServiceGraph "T")).prepare .empty).model.methods 1 = [method] ∧
        ((ofGraph (genericServiceGraph "T")).prepare .empty).model.methods 3 = [closed] ∧
        method.Closes ["T"] [⟨"int", [], ""⟩] closed := by
  have hbuild : TypeGraph.build [genericBase "T", genericService, serviceUser] =
      .ok (genericServiceGraph "T") := by rfl
  have hready : ((ofGraph (genericServiceGraph "T")).prepare .empty).outcome = .ready :=
    outcome_prepare_of_all (by decide)
  have hquiet : ((ofGraph (genericServiceGraph "T")).prepare .empty).delivered = [] :=
    delivered_eq_nil_of_all (by decide +kernel)
  obtain ⟨hgraph, h, _⟩ := analysed_of_prepare hbuild hready
  have hservice :
      ((ofGraph (genericServiceGraph "T")).prepare .empty).model.isService 1 = true := by
    rw [h.isService_eq, hgraph]
    rfl
  have hinterfaces : (genericServiceGraph "T").allInterfaces 1 =
      [⟨baseInterfaceName, [], ""⟩, ⟨"N.IBase", [⟨"T", [], ""⟩], ""⟩] := by decide +kernel
  have hbases : (genericServiceGraph "T").BasesClose ["T"] [⟨"int", [], ""⟩] 1 := by
    constructor
    case distinct =>
      rw [hinterfaces]
      decide
    case declared =>
      rw [hinterfaces]
      refine List.forall_mem_cons.mpr ⟨.none, List.forall_mem_singleton.mpr ?_⟩
      exact .some (Declaration.closes_closeOver (by decide))
  have happlication : (genericServiceGraph "T").node? 3 =
      some ⟨genericService.closeOver ["T"] [⟨"int", [], ""⟩], none, 1⟩ := by rfl
  have hcloses := methods_closeOver hbuild hready hquiet rfl hservice rfl happlication rfl
    (by decide) (by decide) (by decide) hbases
  obtain ⟨hmethods, _⟩ := @methods_of_quiet _ _ hbuild hready hquiet 1 (by rfl)
  have hone : ((genericServiceGraph "T").candidates 1).length = 1 := by decide +kernel
  obtain ⟨method, hmethod⟩ := List.length_eq_one_iff.mp
    ((congrArg List.length hmethods).trans ((List.length_map _).trans hone))
  rw [hmethod, List.forall₂_cons_left_iff] at hcloses
  obtain ⟨closed, others, hpair, hothers, hclosed⟩ := hcloses
  cases hothers
  exact ⟨hbuild, method, closed, hmethod, hclosed, hpair⟩

end ServiceModel

end RadioBroker
