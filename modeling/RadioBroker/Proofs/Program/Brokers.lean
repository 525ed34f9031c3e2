import RadioBroker.Proofs.Program.Contract
import RadioBroker.Proofs.Program.Placement
import RadioBroker.Proofs.ServiceModel.Linked
import RadioBroker.Proofs.ServiceModel.Reports

/-!
# Which services have brokers

A broker class is made for definitions, where generation gets to them. The broker of a service is
therefore that of its definition, which has to be a service itself, and generation gets there
through the types around the definition, which have to be applied themselves. They are if none of
them is a closed type; what is declared in a closed type is not generated.
-/

namespace RadioBroker

open Relation

/-- The broker classes of a type in an outline, each in its place. -/
def Outline.brokersOf (outline : Outline) (id : TypeId) : List Piece.Placement :=
  outline.placed.filter fun placement => placement.piece.key = (id, false)

namespace ServiceModel

variable {model : ServiceModel} {before after level : List TypeId} {pieces : List Piece}
  {id top : TypeId} {broker : BrokerClass} {declaration : Declaration} {outline : Outline}

/-- A type is the definition of something that services need. -/
def Applied (model : ServiceModel) (id : TypeId) : Prop :=
  ∃ other, model.NeededByService other ∧ model.graph.definitionOf other = id

/-! ## Where generation gets to -/

/-- A service yields a broker. -/
theorem exists_mem_ownPieces {own : List Piece} (hservice : model.isService id = true)
    (hown : model.ownPieces id declaration = .ok own) :
    ∃ broker, (id, broker) ∈ Piece.brokersIn own := by
  rw [ownPieces, if_pos hservice] at hown
  obtain ⟨broker, _, hresult⟩ := bind_eq_ok_iff.mp hown
  cases hresult
  exact ⟨broker, by simp [Piece.brokers]⟩

/-- A service to which a walk gets through partial types has a broker. -/
theorem Walk.exists_broker (hwalk : Walk model before level pieces after) (htop : top ∈ level)
    (hway : ReflTransGen (model.Passes model.graph.IsPartial) top id)
    (hservice : model.isService id = true) :
    ∃ broker, (id, broker) ∈ Piece.brokersIn pieces := by
  induction hwalk generalizing top with
  | nil => cases htop
  | stay hnode hown hpartial _ ih =>
      rw [Piece.brokersIn_append]
      rcases List.mem_cons.mp htop with rfl | hlater
      · cases eq_of_way_of_not (TypeGraph.not_isPartial hnode hpartial) hway
        obtain ⟨broker, hmem⟩ := exists_mem_ownPieces hservice hown
        exact ⟨broker, List.mem_append_left _ hmem⟩
      · obtain ⟨broker, hmem⟩ := ih hlater hway
        exact ⟨broker, List.mem_append_right _ hmem⟩
  | enter _ hown _ _ _ _ hnested hrest =>
      rw [Piece.brokersIn_append, Piece.brokersIn_append, Piece.brokersIn_scopeUnlessEmpty]
      rcases List.mem_cons.mp htop with rfl | hlater
      · rcases ReflTransGen.cases_head hway with rfl | ⟨child, hstep, hrestWay⟩
        · obtain ⟨broker, hmem⟩ := exists_mem_ownPieces hservice hown
          exact ⟨broker, List.mem_append_left _ (List.mem_append_left _ hmem)⟩
        · obtain ⟨broker, hmem⟩ := hnested hstep.2 hrestWay
          exact ⟨broker, List.mem_append_left _ (List.mem_append_right _ hmem)⟩
      · obtain ⟨broker, hmem⟩ := hrest hlater hway
        exact ⟨broker, List.mem_append_right _ hmem⟩

/-- A broker has the class name of its service. -/
theorem name_of_brokerClass (h : model.brokerClass id declaration = .ok broker) :
    broker.name = model.className id := by
  unfold brokerClass at h
  split at h
  · cases h
  · obtain ⟨_, _, hresult⟩ := bind_eq_ok_iff.mp h
    cases hresult
    rfl

/-- The broker classes of a type are its pieces that are no scope. -/
theorem mem_brokersOf_iff {placement : Piece.Placement} :
    placement ∈ outline.brokersOf id ↔
      placement ∈ outline.placed ∧ ∃ broker, placement.piece = .broker id broker := by
  rw [Outline.brokersOf, List.mem_filter, decide_eq_true_eq]
  refine and_congr_right fun _ => ?_
  cases placement.piece with
  | broker owner broker => simp [Piece.key]
  | scope owner declaration pieces initializer => simp [Piece.key]

/-- The broker classes of an outline are those of its types. -/
theorem mem_brokers_iff : (id, broker) ∈ outline.brokers ↔
    ∃ around, ⟨around, .broker id broker⟩ ∈ outline.brokersOf id := by
  rw [outline.brokers_eq, List.mem_filterMap]
  constructor
  · rintro ⟨⟨around, piece⟩, hplaced, hpiece⟩
    obtain rfl := Piece.eq_broker_of_broker? hpiece
    exact ⟨around, mem_brokersOf_iff.mpr ⟨hplaced, broker, rfl⟩⟩
  · rintro ⟨around, hmem⟩
    exact ⟨_, (mem_brokersOf_iff.mp hmem).1, rfl⟩

/-- Where keys tell all placements apart, one that is found is the only one with its key. -/
theorem filter_key_eq_singleton {placements : List Piece.Placement} {placement : Piece.Placement}
    {key : TypeId × Bool} (h : (placements.map (·.piece.key)).Nodup) (hmem : placement ∈ placements)
    (hkey : placement.piece.key = key) :
    placements.filter (fun other => other.piece.key = key) = [placement] := by
  obtain ⟨front, back, rfl⟩ := List.append_of_mem hmem
  subst hkey
  rw [List.map_append, List.map_cons, List.nodup_middle, List.nodup_cons, List.mem_append,
    not_or] at h
  obtain ⟨⟨hfront, hback⟩, _⟩ := h
  have hnone : ∀ {others : List Piece.Placement},
      placement.piece.key ∉ others.map (·.piece.key) →
      others.filter (fun other => other.piece.key = placement.piece.key) = [] := by
    intro others hothers
    refine List.filter_eq_nil_iff.mpr ?_
    intro other hother heq
    exact hothers (List.mem_map.mpr ⟨other, hother, of_decide_eq_true heq⟩)
  rw [List.filter_append, List.filter_cons_of_pos (by simp), hnone hfront, hnone hback]
  rfl

/-- A type has exactly one broker class in an outline, in the scopes of the types around it, if it
is a service that is reached through partial types. -/
theorem Analysed.exists_brokersOf_eq (h : model.Analysed) (hacyclic : model.graph.Acyclic)
    (houtline : model.outline = .ok outline) (hservice : model.isService id = true)
    (hreached : model.Reached model.graph.IsPartial id) :
    ∃ broker, outline.brokersOf id = [⟨model.graph.ancestors id, .broker id broker⟩] ∧
      broker.name = model.className id := by
  obtain ⟨after, hwalk, _⟩ := h.walk_of_outline hacyclic houtline
  obtain ⟨root, hroot, hway⟩ := hreached
  obtain ⟨broker, hmem⟩ := hwalk.exists_broker hroot hway hservice
  obtain ⟨_, declaration, hclass⟩ := hwalk.brokerClass_of_mem hmem
  refine ⟨broker, ?_, name_of_brokerClass hclass⟩
  have hbrokers : (id, broker) ∈ outline.brokers := hmem
  rw [outline.brokers_eq, List.mem_filterMap] at hbrokers
  obtain ⟨⟨around, piece⟩, hplaced, hpiece⟩ := hbrokers
  obtain rfl := Piece.eq_broker_of_broker? hpiece
  have haround : around = model.graph.ancestors id :=
    (h.wellPlaced hacyclic houtline hplaced).around
  rw [haround] at hplaced
  exact filter_key_eq_singleton (h.nodup_keys hacyclic houtline) hplaced rfl

/-- A type has a broker class in an outline only if it is a service that is reached. -/
theorem Analysed.of_mem_brokersOf (h : model.Analysed) (hacyclic : model.graph.Acyclic)
    (houtline : model.outline = .ok outline) {placement : Piece.Placement}
    (hmem : placement ∈ outline.brokersOf id) :
    model.isService id = true ∧ model.Reached model.graph.IsPartial id ∧
      placement.around = model.graph.ancestors id := by
  obtain ⟨after, hwalk, _⟩ := h.walk_of_outline hacyclic houtline
  obtain ⟨hplaced, broker, hpiece⟩ := mem_brokersOf_iff.mp hmem
  have hbroker : (id, broker) ∈ outline.brokers := by
    rw [outline.brokers_eq, List.mem_filterMap]
    exact ⟨placement, hplaced, by rw [hpiece, Piece.broker?]⟩
  have hreached := h.reached_of_mem_placed hacyclic houtline hplaced
  have haround := (h.wellPlaced hacyclic houtline hplaced).around
  rw [hpiece] at hreached haround
  exact ⟨(hwalk.brokerClass_of_mem hbroker).1, hreached, haround⟩

/-! ## What is generated when nothing is reported -/

/-- Where an outline has broker classes. -/
structure Brokered (model : ServiceModel) (outline : Outline) : Prop where
  /-- The definition of a service has one broker class, which stands in the scopes of exactly the
  types around the definition, if it is a service itself and all these types are applied. -/
  one : ∀ id, model.isService id = true →
    model.isService (model.graph.definitionOf id) = true →
    (∀ outer ∈ model.graph.ancestors (model.graph.definitionOf id), model.Applied outer) →
    ∃ broker,
      outline.brokersOf (model.graph.definitionOf id) =
        [⟨model.graph.ancestors (model.graph.definitionOf id),
          .broker (model.graph.definitionOf id) broker⟩] ∧
      broker.name = model.className (model.graph.definitionOf id)
  /-- Otherwise it has none. -/
  lost : ∀ id, model.isService id = true →
    ¬ (model.isService (model.graph.definitionOf id) = true ∧
      ∀ outer ∈ model.graph.ancestors (model.graph.definitionOf id), model.Applied outer) →
    outline.brokersOf (model.graph.definitionOf id) = []
  /-- The types around the definition of a service are all applied, if none of them is closed. -/
  applied : ∀ id, model.isService id = true →
    (∀ outer ∈ model.graph.ancestors (model.graph.definitionOf id),
      (model.genericsOf outer).isClosed = false) →
    ∀ outer ∈ model.graph.ancestors (model.graph.definitionOf id), model.Applied outer
  /-- There are broker classes for services only, in the scopes of exactly the types around them.
  Each of these services is the definition of a service, or an applied type that is closed. -/
  sound : ∀ owner, ∀ placement ∈ outline.brokersOf owner,
    model.isService owner = true ∧ placement.around = model.graph.ancestors owner ∧
      ((∃ id, model.isService id = true ∧ model.graph.definitionOf id = owner) ∨
        (model.genericsOf owner).isClosed = true ∧ model.Applied owner)

/-- A service is its own definition unless it is closed. -/
theorem Analysed.definitionOf_eq_self (h : model.Analysed) (hservice : model.isService id = true)
    (hclosed : (model.genericsOf id).isClosed = false) : model.graph.definitionOf id = id := by
  obtain ⟨node, hnode⟩ := TypeGraph.exists_node_iff.mpr (h.lt_of_isService hservice)
  exact h.graph.definition_self hnode (by simpa [genericsOf, hnode] using hclosed)

/-- Types with instances are the applied ones, if exactly what services need is linked. -/
theorem Analysed.instancesOf_ne_nil_iff (h : model.Analysed)
    (hlinked : ∀ id, model.relations.Linked model.graph id ↔ model.NeededByService id) :
    model.relations.instancesOf id ≠ [] ↔ model.Applied id := by
  rw [h.relations.instancesOf_ne_nil_iff, Applied]
  simp only [hlinked]

/-- The outline of an analysed model, if the types around services are partial and exactly what
services need is linked. -/
theorem Analysed.brokered (h : model.Analysed) (hacyclic : model.graph.Acyclic)
    (houtline : model.outline = .ok outline)
    (hlinked : ∀ id, model.relations.Linked model.graph id ↔ model.NeededByService id)
    (hpartial : ∀ id, model.isService id = true → ∀ outer ∈ model.graph.ancestors id,
      model.graph.IsPartial outer) :
    model.Brokered outline := by
  have happlied : ∀ id, model.relations.instancesOf id ≠ [] ↔ model.Applied id := fun id =>
    h.instancesOf_ne_nil_iff hlinked
  have hdefinition : ∀ id, model.isService id = true →
      model.relations.instancesOf (model.graph.definitionOf id) ≠ [] := fun id hservice =>
    h.relations.instancesOf_ne_nil_iff.mpr ⟨id, h.linked id hservice, rfl⟩
  constructor
  case one =>
    intro id hservice hmarked hancestors
    refine h.exists_brokersOf_eq hacyclic houtline hmarked ?_
    refine h.reached_of_ancestors hacyclic (hdefinition id hservice) ?_
    intro outer houter
    exact ⟨hpartial _ hmarked outer houter, (happlied outer).mpr (hancestors outer houter)⟩
  case lost =>
    intro id _ hlost
    refine List.eq_nil_iff_forall_not_mem.mpr ?_
    intro placement hmem
    obtain ⟨hmarked, hreached, _⟩ := h.of_mem_brokersOf hacyclic houtline hmem
    refine hlost ⟨hmarked, ?_⟩
    intro outer houter
    exact (happlied outer).mp ((h.ancestors_of_reached hacyclic hreached).2 outer houter).2
  case applied =>
    intro id hservice hclosed outer houter
    exact (happlied outer).mp
      (h.instancesOf_of_mem_ancestors hacyclic (hdefinition id hservice) hclosed outer houter)
  case sound =>
    intro owner placement hmem
    obtain ⟨hmarked, hreached, haround⟩ := h.of_mem_brokersOf hacyclic houtline hmem
    refine ⟨hmarked, haround, ?_⟩
    cases hclosed : (model.genericsOf owner).isClosed with
    | false => exact Or.inl ⟨owner, hmarked, h.definitionOf_eq_self hmarked hclosed⟩
    | true => exact Or.inr ⟨rfl, (happlied owner).mp (h.ancestors_of_reached hacyclic hreached).1⟩

/-- A type is generated if it is applied, as are all types around it. -/
def Generated (model : ServiceModel) (id : TypeId) : Prop :=
  model.Applied id ∧ ∀ outer ∈ model.graph.ancestors id, model.Applied outer

/-- A type has a broker class exactly if it is a service that is generated. -/
theorem Analysed.exists_broker_iff (h : model.Analysed) (hacyclic : model.graph.Acyclic)
    (houtline : model.outline = .ok outline)
    (hlinked : ∀ id, model.relations.Linked model.graph id ↔ model.NeededByService id)
    (hpartial : ∀ id, model.isService id = true → ∀ outer ∈ model.graph.ancestors id,
      model.graph.IsPartial outer) :
    (∃ broker, (id, broker) ∈ outline.brokers) ↔
      model.isService id = true ∧ model.Generated id := by
  constructor
  · rintro ⟨broker, hmem⟩
    obtain ⟨around, hplaced⟩ := mem_brokers_iff.mp hmem
    obtain ⟨hservice, hreached, _⟩ := h.of_mem_brokersOf hacyclic houtline hplaced
    obtain ⟨hself, haround⟩ := h.ancestors_of_reached hacyclic hreached
    exact ⟨hservice, (h.instancesOf_ne_nil_iff hlinked).mp hself, fun outer houter =>
      (h.instancesOf_ne_nil_iff hlinked).mp (haround outer houter).2⟩
  · rintro ⟨hservice, hself, haround⟩
    have hreached : model.Reached model.graph.IsPartial id :=
      h.reached_of_ancestors hacyclic ((h.instancesOf_ne_nil_iff hlinked).mpr hself)
        fun outer houter => ⟨hpartial id hservice outer houter,
          (h.instancesOf_ne_nil_iff hlinked).mpr (haround outer houter)⟩
    obtain ⟨broker, hone, _⟩ := h.exists_brokersOf_eq hacyclic houtline hservice hreached
    exact ⟨broker, mem_brokers_iff.mpr ⟨_, hone ▸ List.mem_singleton_self _⟩⟩

/-- No type has two broker classes. -/
theorem Analysed.nodup_brokers (h : model.Analysed) (hacyclic : model.graph.Acyclic)
    (houtline : model.outline = .ok outline) : (outline.brokers.map Prod.fst).Nodup := by
  rw [outline.brokers_eq]
  refine Piece.nodup_owners_of_nodup_keys _ false ?_ (h.nodup_keys hacyclic houtline)
  intro piece entry hentry
  obtain rfl := Piece.eq_broker_of_broker? hentry
  rfl

/-- A service is generated if neither it nor a type around it is closed. -/
theorem Analysed.generated_of_not_closed (h : model.Analysed) (hacyclic : model.graph.Acyclic)
    (hlinked : ∀ id, model.relations.Linked model.graph id ↔ model.NeededByService id)
    (hservice : model.isService id = true) (hclosed : (model.genericsOf id).isClosed = false)
    (haround : ∀ outer ∈ model.graph.ancestors id, (model.genericsOf outer).isClosed = false) :
    model.Generated id := by
  have hinstances : model.relations.instancesOf id ≠ [] :=
    h.relations.instancesOf_ne_nil_iff.mpr
      ⟨id, h.linked id hservice, h.definitionOf_eq_self hservice hclosed⟩
  refine ⟨(h.instancesOf_ne_nil_iff hlinked).mp hinstances, ?_⟩
  intro outer houter
  exact (h.instancesOf_ne_nil_iff hlinked).mp
    (h.instancesOf_of_mem_ancestors hacyclic hinstances haround outer houter)

/-- Where nothing is reported, the types around services are partial. -/
theorem isPartial_of_delivered_eq_nil {declarations : List Declaration} {graph : TypeGraph}
    (hbuild : TypeGraph.build declarations = .ok graph)
    (hready : ((ofGraph graph).prepare .empty).outcome = .ready)
    (hquiet : ((ofGraph graph).prepare .empty).delivered = [])
    (hservice : ((ofGraph graph).prepare .empty).model.isService id = true) :
    ∀ outer ∈ graph.ancestors id, graph.IsPartial outer := by
  obtain ⟨_, _, hdelivered⟩ := analysed_of_prepare hbuild hready
  rw [hquiet] at hdelivered
  intro outer houter
  by_contra hnot
  have hlt := (TypeGraph.wellFormed_of_build hbuild).lt_of_mem_climb houter
  have hreported : graph.notPartialDiagnostic outer ∈ graph.serviceDiagnostics id :=
    List.mem_append_left _
      (TypeGraph.mem_parentDiagnostics_iff.mpr ⟨outer, houter, hlt, hnot, rfl⟩)
  exact List.not_mem_nil (hdelivered id hservice _ hreported)

/-- In a program of declarations whose preparation is ready and reports nothing the definition of a
service has exactly one broker class, in the scopes of the types around it, if it is a service and
these types are applied; otherwise it has none. There are no other broker classes, except for closed
types that are applied themselves. -/
theorem brokers_placed {declarations : List Declaration} {graph : TypeGraph} {hook : ModuleHook}
    {cancelled : Bool} {program : Program}
    (hbuild : TypeGraph.build declarations = .ok graph) (hacyclic : graph.Acyclic)
    (hready : ((ofGraph graph).prepare .empty).outcome = .ready)
    (hquiet : ((ofGraph graph).prepare .empty).delivered = [])
    (hprogram : ((ofGraph graph).prepare .empty).model.synthesize hook cancelled = .ok program) :
    ((ofGraph graph).prepare .empty).model.graph = graph ∧
      ∃ outline, ((ofGraph graph).prepare .empty).model.outline = .ok outline ∧
        program = outline.program hook ∧
        ((ofGraph graph).prepare .empty).model.Brokered outline := by
  obtain ⟨hgraph, h, _⟩ := analysed_of_prepare hbuild hready
  refine ⟨hgraph, ?_⟩
  obtain ⟨outline, houtline, hresult⟩ := exists_outline_of_synthesize hprogram
  refine ⟨outline, houtline, hresult, ?_⟩
  refine h.brokered (hgraph.symm ▸ hacyclic) houtline ?_ ?_
  · rw [hgraph]
    exact linked_iff_of_prepare hbuild hready
  · rw [hgraph]
    exact fun id hservice => isPartial_of_delivered_eq_nil hbuild hready hquiet hservice

/-- A service in a partial type. -/
def serviceInType : List Declaration :=
  [(Declaration.ofPath .classType "N" "Outer").asPartial,
   { (Declaration.ofPath .interface "N" "Outer.I").marked with
      interfaces := [⟨baseInterfaceName, [], ""⟩] }]

/-- The graph of `serviceInType`. -/
def serviceInTypeGraph : TypeGraph :=
  ⟨[⟨serviceInType[0], none, 0⟩, ⟨serviceInType[1], some 0, 1⟩]⟩

/-- The service has one broker class, in the scope of the type around it. -/
theorem brokers_serviceInType :
    TypeGraph.build serviceInType = .ok serviceInTypeGraph ∧ serviceInTypeGraph.Acyclic ∧
      ((ofGraph serviceInTypeGraph).prepare .empty).outcome = .ready ∧
      ((ofGraph serviceInTypeGraph).prepare .empty).delivered = [] ∧
      ∃ (program : Program) (outline : Outline) (broker : BrokerClass),
        ((ofGraph serviceInTypeGraph).prepare .empty).model.synthesize default false = .ok program ∧
        program = outline.program default ∧
        outline.brokersOf 1 = [⟨[0], .broker 1 broker⟩] := by
  have hbuild : TypeGraph.build serviceInType = .ok serviceInTypeGraph := by rfl
  have hacyclic : serviceInTypeGraph.Acyclic := TypeGraph.acyclic_of_lt (by decide)
  have hready : ((ofGraph serviceInTypeGraph).prepare .empty).outcome = .ready :=
    outcome_prepare_of_all (by decide)
  have hquiet : ((ofGraph serviceInTypeGraph).prepare .empty).delivered = [] :=
    delivered_eq_nil_of_all (by decide +kernel)
  obtain ⟨program, hprogram⟩ := exists_program_of_forall_ids hbuild hready default (by decide)
  obtain ⟨hgraph, outline, _, hresult, hbrokered⟩ :=
    brokers_placed hbuild hacyclic hready hquiet hprogram
  obtain ⟨_, h, _⟩ := analysed_of_prepare hbuild hready
  refine ⟨hbuild, hacyclic, hready, hquiet, ?_⟩
  generalize ((ofGraph serviceInTypeGraph).prepare .empty).model = model at *
  have hservice : model.isService 1 = true := by
    rw [h.isService_eq, hgraph]
    rfl
  have hdefinition : model.graph.definitionOf 1 = 1 := by
    rw [hgraph]
    rfl
  have hancestors : model.graph.ancestors 1 = [0] := by
    rw [hgraph]
    rfl
  have happlied := hbrokered.applied 1 hservice
  have hone := hbrokered.one 1 hservice
  rw [hdefinition, hancestors] at happlied hone
  obtain ⟨broker, hbroker, _⟩ := hone hservice (happlied (by
    intro outer houter
    cases List.mem_singleton.mp houter
    rw [genericsOf, hgraph]
    rfl))
  exact ⟨program, outline, broker, hprogram, hresult, hbroker⟩

/-- A service in a closed application of a partial generic definition. -/
def serviceInApplication : List Declaration :=
  [((Declaration.ofPath .classType "N" "Box").openGeneric ["T"]).asPartial,
   { (Declaration.ofPath .classType "N" "Box").asPartial with
      fullName := "N.Box<int>"
      generics := .closedOver "N.Box<T>" [⟨"int", [], ""⟩] },
   { (Declaration.ofPath .interface "N" "IInner").marked with
      fullName := "N.Box<int>.IInner"
      containingType := some "N.Box<int>"
      interfaces := [⟨baseInterfaceName, [], ""⟩] }]

/-- The graph of `serviceInApplication`. -/
def serviceInApplicationGraph : TypeGraph :=
  ⟨[⟨serviceInApplication[0], none, 0⟩, ⟨serviceInApplication[1], none, 0⟩,
    ⟨serviceInApplication[2], some 1, 2⟩]⟩

/-- Nothing is reported of the service in the application, and it has no broker class. -/
theorem brokers_serviceInApplication :
    TypeGraph.build serviceInApplication = .ok serviceInApplicationGraph ∧
      serviceInApplicationGraph.Acyclic ∧
      ((ofGraph serviceInApplicationGraph).prepare .empty).outcome = .ready ∧
      ((ofGraph serviceInApplicationGraph).prepare .empty).delivered = [] ∧
      ((ofGraph serviceInApplicationGraph).prepare .empty).model.isService 2 = true ∧
      serviceInApplicationGraph.definitionOf 2 = 2 ∧
      ∃ (program : Program) (outline : Outline),
        ((ofGraph serviceInApplicationGraph).prepare .empty).model.synthesize default false =
          .ok program ∧
        program = outline.program default ∧ outline.brokersOf 2 = [] := by
  have hbuild : TypeGraph.build serviceInApplication = .ok serviceInApplicationGraph := by rfl
  have hacyclic : serviceInApplicationGraph.Acyclic := TypeGraph.acyclic_of_lt (by decide)
  have hready : ((ofGraph serviceInApplicationGraph).prepare .empty).outcome = .ready :=
    outcome_prepare_of_all (by decide)
  have hquiet : ((ofGraph serviceInApplicationGraph).prepare .empty).delivered = [] :=
    delivered_eq_nil_of_all (by decide +kernel)
  obtain ⟨program, hprogram⟩ := exists_program_of_forall_ids hbuild hready default (by decide)
  obtain ⟨hgraph, h, _⟩ := analysed_of_prepare hbuild hready
  obtain ⟨outline, houtline, hresult⟩ := exists_outline_of_synthesize hprogram
  generalize ((ofGraph serviceInApplicationGraph).prepare .empty).model = model at *
  have hservice : model.isService 2 = true := by
    rw [h.isService_eq, hgraph]
    rfl
  refine ⟨hbuild, hacyclic, hready, hquiet, hservice, rfl, program, outline, hprogram, hresult, ?_⟩
  refine List.eq_nil_iff_forall_not_mem.mpr ?_
  intro placement hmem
  obtain ⟨_, hreached, _⟩ := h.of_mem_brokersOf (hgraph.symm ▸ hacyclic) houtline hmem
  have hancestors : 1 ∈ model.graph.ancestors 2 := by
    rw [hgraph]
    exact List.mem_singleton_self 1
  -- The application would have to be the definition of some type.
  obtain ⟨id, hlinked, hdefinition⟩ := h.relations.instancesOf_ne_nil_iff.mp
    ((h.ancestors_of_reached (hgraph.symm ▸ hacyclic) hreached).2 1 hancestors).2
  have hlt := hlinked.1
  rw [hgraph] at hlt hdefinition
  have hnever : ∀ id < 3, serviceInApplicationGraph.definitionOf id ≠ 1 := by decide
  exact hnever id hlt hdefinition

end ServiceModel

end RadioBroker
