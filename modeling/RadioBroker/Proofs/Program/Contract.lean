import RadioBroker.Proofs.Dispatch.Body
import RadioBroker.Proofs.Program.Totality

/-!
# From declared methods to broker methods

Every method that a service declares or inherits is accounted for: it is offered, or it is reported
as a duplicate or for its return type. The broker of the service implements what is offered, method
by method in order, and loses nothing.
-/

namespace RadioBroker

/-- A broker method implements a method of its service: both agree in all that callers see, and the
only call in the body forwards every parameter. -/
structure Implements (method : ServiceMethod) (implementation : BrokerMethod) : Prop where
  name : implementation.name = method.name
  interface : implementation.interface = method.interface
  returnType : implementation.returnType = method.returnType
  parameters : implementation.parameters = method.parameters
  kind : implementation.kind = method.kind
  calls : Statement.callsIn implementation.body = [⟨method.name, method.parameters.length⟩]

/-- What is offered is classified by its return type. -/
theorem Candidate.classified_of_mem_offered {candidates : List Candidate} {method : ServiceMethod}
    (h : method ∈ offered candidates) : method.Classified := by
  obtain ⟨entry, hentry, rfl⟩ := List.mem_map.mp h
  have hoffered := (List.mem_filter.mp hentry).2
  rw [isOffered, Bool.and_eq_true, decide_eq_true_eq] at hoffered
  exact ⟨rfl, hoffered.2⟩

/-- Classified methods are all implemented, in order. -/
theorem forall₂_implements {methods : List ServiceMethod}
    (h : ∀ method ∈ methods, method.Classified) :
    List.Forall₂ Implements methods (methods.filterMap ServiceModel.brokerMethod?) := by
  induction methods with
  | nil => exact .nil
  | cons method methods ih =>
      obtain ⟨body, hbody, hcalls⟩ := (h method List.mem_cons_self).exists_dispatchBody
      have hmethod : ServiceModel.brokerMethod? method =
          some ⟨method.name, method.interface, method.returnType, method.parameters, method.kind,
            body⟩ := by
        rw [ServiceModel.brokerMethod?, hbody, Option.map_some]
      rw [List.filterMap_cons, hmethod]
      exact .cons ⟨rfl, rfl, rfl, rfl, rfl, hcalls⟩
        (ih fun other hother => h other (List.mem_cons_of_mem _ hother))

namespace Piece

theorem brokersIn_append (pieces more : List Piece) :
    brokersIn (pieces ++ more) = brokersIn pieces ++ brokersIn more := by
  simp

/-- A scope has the brokers that it holds. -/
theorem brokersIn_scopeUnlessEmpty (owner : TypeId) (declaration : Declaration)
    (pieces : List Piece) (initializer : Option Routine) :
    brokersIn (scopeUnlessEmpty owner declaration pieces initializer) = brokersIn pieces := by
  unfold scopeUnlessEmpty
  split
  · rename_i hempty
    simp only [Bool.and_eq_true, List.isEmpty_iff] at hempty
    simp [hempty]
  · simp [brokers]

end Piece

namespace ServiceModel

variable {model : ServiceModel} {before after level : List TypeId} {pieces own : List Piece}
  {id : TypeId} {broker : BrokerClass}

/-- A broker is the broker class of its service. -/
theorem eq_of_mem_ownPieces {owner : TypeId} {declaration : Declaration}
    (hown : model.ownPieces owner declaration = .ok own)
    (hmem : (id, broker) ∈ Piece.brokersIn own) :
    id = owner ∧ model.isService owner = true ∧
      model.brokerClass owner declaration = .ok broker := by
  unfold ownPieces at hown
  split at hown
  · rename_i hservice
    obtain ⟨made, hmade, hresult⟩ := bind_eq_ok_iff.mp hown
    cases hresult
    simp only [Piece.brokersIn, Piece.brokers, List.append_nil, List.mem_singleton,
      Prod.mk.injEq] at hmem
    obtain ⟨rfl, rfl⟩ := hmem
    exact ⟨rfl, hservice, hmade⟩
  · cases hown
    cases hmem

/-- Every broker of a walk is the broker class that is made of the declaration of its service. -/
theorem Walk.exists_node_of_mem (hwalk : Walk model before level pieces after)
    (hmem : (id, broker) ∈ Piece.brokersIn pieces) :
    model.isService id = true ∧ ∃ node, model.graph.node? id = some node ∧
      model.brokerClass id node.declaration = .ok broker := by
  induction hwalk with
  | nil => cases hmem
  | stay hnode hown _ _ ih =>
      rw [Piece.brokersIn_append] at hmem
      rcases List.mem_append.mp hmem with hself | hlater
      · obtain ⟨rfl, hservice, hclass⟩ := eq_of_mem_ownPieces hown hself
        exact ⟨hservice, _, hnode, hclass⟩
      · exact ih hlater
  | enter hnode hown _ _ _ _ hnested hrest =>
      rw [Piece.brokersIn_append, Piece.brokersIn_append, Piece.brokersIn_scopeUnlessEmpty] at hmem
      rcases List.mem_append.mp hmem with hfirst | hlater
      · rcases List.mem_append.mp hfirst with hself | hbelow
        · obtain ⟨rfl, hservice, hclass⟩ := eq_of_mem_ownPieces hown hself
          exact ⟨hservice, _, hnode, hclass⟩
        · exact hnested hbelow
      · exact hrest hlater

/-- Every broker of a walk is the broker class of its service. -/
theorem Walk.brokerClass_of_mem (hwalk : Walk model before level pieces after)
    (hmem : (id, broker) ∈ Piece.brokersIn pieces) :
    model.isService id = true ∧ ∃ declaration, model.brokerClass id declaration = .ok broker := by
  obtain ⟨hservice, node, _, hclass⟩ := hwalk.exists_node_of_mem hmem
  exact ⟨hservice, node.declaration, hclass⟩

/-- A broker class has the methods of its service that have a body. -/
theorem methods_of_brokerClass {declaration : Declaration}
    (h : model.brokerClass id declaration = .ok broker) :
    broker.methods = (model.methods id).filterMap brokerMethod? := by
  unfold brokerClass at h
  split at h
  · cases h
  · obtain ⟨_, _, hresult⟩ := bind_eq_ok_iff.mp h
    cases hresult
    rfl

/-- The methods of a service are what its candidates offer. -/
theorem Analysed.methods_eq_offered (h : model.Analysed) (hservice : model.isService id = true) :
    model.methods id = Candidate.offered (model.graph.candidates id) := by
  rw [h.methods_eq hservice, TypeGraph.serviceMethods, TypeGraph.verdicts,
    Candidate.filterMap_method?_judgeAll]

/-- What becomes of the methods that a service declares and inherits. -/
structure Accounted (model : ServiceModel) (delivered : List Diagnostic) (outline : Outline)
    (id : TypeId) : Prop where
  /-- The methods are the candidates that are first of their signature and have a supported return
  type, in order. -/
  methods : model.methods id = Candidate.offered (model.graph.candidates id)
  /-- A candidate whose signature an earlier one has is reported, along with the first of these. -/
  duplicate : ∀ position candidate first,
    (model.graph.candidates id)[position]? = some candidate →
    Candidate.forerunner? ((model.graph.candidates id).take position) candidate = some first →
    Candidate.duplicateDiagnostic first candidate ∈ delivered
  /-- Any other candidate without a supported return type is reported for it. -/
  unsupported : ∀ position candidate,
    (model.graph.candidates id)[position]? = some candidate →
    Candidate.forerunner? ((model.graph.candidates id).take position) candidate = none →
    ¬ candidate.Supported → Candidate.unsupportedDiagnostic candidate ∈ delivered
  /-- A broker implements the methods one by one, in order. -/
  implemented : ∀ broker, (id, broker) ∈ outline.brokers →
    List.Forall₂ Implements (model.methods id) broker.methods

/-- In a program of declarations whose preparation is ready every method of every service is
accounted for. -/
theorem methods_accounted {declarations : List Declaration} {graph : TypeGraph}
    {hook : ModuleHook} {program : Program}
    (hbuild : TypeGraph.build declarations = .ok graph) (hacyclic : graph.Acyclic)
    (hready : ((ofGraph graph).prepare .empty).outcome = .ready)
    (hprogram : ((ofGraph graph).prepare .empty).model.synthesize hook false = .ok program) :
    ((ofGraph graph).prepare .empty).model.graph = graph ∧
      ∃ outline, ((ofGraph graph).prepare .empty).model.outline = .ok outline ∧
        program = outline.program hook ∧
        ∀ id, ((ofGraph graph).prepare .empty).model.isService id = true →
          ((ofGraph graph).prepare .empty).model.Accounted
            ((ofGraph graph).prepare .empty).delivered outline id := by
  obtain ⟨hgraph, h, hdelivered⟩ := analysed_of_prepare hbuild hready
  refine ⟨hgraph, ?_⟩
  obtain ⟨outline, houtline, hresult⟩ := exists_outline_of_synthesize hprogram
  obtain ⟨after, hwalk, _⟩ := h.walk_of_outline (hgraph.symm ▸ hacyclic) houtline
  refine ⟨outline, houtline, hresult, ?_⟩
  intro id hservice
  have hreported : ∀ diagnostic ∈ (graph.verdicts id).filterMap Candidate.Verdict.diagnostic?,
      diagnostic ∈ ((ofGraph graph).prepare .empty).delivered := fun diagnostic hmem =>
    hdelivered id hservice diagnostic (List.mem_append_right _ hmem)
  constructor
  case methods => exact h.methods_eq_offered hservice
  case duplicate =>
    intro position candidate first hcandidate hfirst
    rw [hgraph] at hcandidate hfirst
    exact hreported _ (Candidate.diagnostic_mem hcandidate (Candidate.judge_of_some hfirst))
  case unsupported =>
    intro position candidate hcandidate hfirst hkind
    rw [hgraph] at hcandidate hfirst
    exact hreported _ (Candidate.diagnostic_mem hcandidate
      (Candidate.judge_of_unsupported hfirst hkind))
  case implemented =>
    intro broker hbroker
    obtain ⟨_, declaration, hclass⟩ := hwalk.brokerClass_of_mem hbroker
    rw [methods_of_brokerClass hclass]
    refine forall₂_implements ?_
    intro method hmethod
    rw [h.methods_eq_offered hservice] at hmethod
    exact Candidate.classified_of_mem_offered hmethod

/-- A service with a method of its own, one that it inherits, one that it inherits again, and one
whose return type is not supported. -/
def inheritingService : List Declaration :=
  [{ Declaration.ofPath .interface "N" "IBase" with
      methods := [⟨"Stop", ⟨"void", [], ""⟩, [⟨"int", [], ""⟩], none, {}⟩,
        ⟨"Go", ⟨"void", [], ""⟩, [], none, {}⟩, ⟨"Count", ⟨"int", [], ""⟩, [], none, {}⟩] },
   { (Declaration.ofPath .interface "N" "I").marked with
      interfaces := [⟨baseInterfaceName, [], ""⟩, ⟨"N.IBase", [], ""⟩]
      methods := [⟨"Go", ⟨taskName, [], ""⟩, [], none, {}⟩] }]

/-- The graph of `inheritingService`. -/
def inheritingServiceGraph : TypeGraph :=
  ⟨[⟨inheritingService[0], none, 0⟩, ⟨inheritingService[1], none, 1⟩]⟩

/-- Of the four candidates of the service two are offered. -/
theorem methods_inheritingService :
    TypeGraph.build inheritingService = .ok inheritingServiceGraph ∧
      inheritingServiceGraph.Acyclic ∧
      ∃ outline,
        ((ofGraph inheritingServiceGraph).prepare .empty).model.outline = .ok outline ∧
        ((ofGraph inheritingServiceGraph).prepare .empty).model.Accounted
          ((ofGraph inheritingServiceGraph).prepare .empty).delivered outline 1 ∧
        (((ofGraph inheritingServiceGraph).prepare .empty).model.methods 1).map
          (fun method => (method.interface, method.name)) = [("I", "Go"), ("N.IBase", "Stop")] := by
  have hbuild : TypeGraph.build inheritingService = .ok inheritingServiceGraph := by rfl
  have hacyclic : inheritingServiceGraph.Acyclic := TypeGraph.acyclic_of_lt (by decide)
  have hready : ((ofGraph inheritingServiceGraph).prepare .empty).outcome = .ready :=
    outcome_prepare_of_all (by decide)
  obtain ⟨program, hprogram⟩ := exists_program_of_forall_ids hbuild hready default (by decide)
  obtain ⟨hgraph, outline, houtline, _, haccounted⟩ :=
    methods_accounted hbuild hacyclic hready hprogram
  obtain ⟨_, h, _⟩ := analysed_of_prepare hbuild hready
  have hservice : ((ofGraph inheritingServiceGraph).prepare .empty).model.isService 1 = true := by
    rw [h.isService_eq, hgraph]
    rfl
  refine ⟨hbuild, hacyclic, outline, houtline, haccounted 1 hservice, ?_⟩
  have hinterfaces : inheritingServiceGraph.allInterfaces 1 =
      [⟨baseInterfaceName, [], ""⟩, ⟨"N.IBase", [], ""⟩] := by
    decide +kernel
  have hcandidates : inheritingServiceGraph.candidates 1 =
      inheritingServiceGraph.declaredCandidates ⟨inheritingService[1], none, 1⟩ "I" ++
        List.flatMap inheritingServiceGraph.inheritedCandidates
          [⟨baseInterfaceName, [], ""⟩, ⟨"N.IBase", [], ""⟩] := by
    rw [← hinterfaces]
    rfl
  rw [(haccounted 1 hservice).methods, hgraph, hcandidates]
  decide

end ServiceModel

end RadioBroker
