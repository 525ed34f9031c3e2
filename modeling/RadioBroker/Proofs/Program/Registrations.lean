import RadioBroker.Proofs.Program.Brokers
import RadioBroker.Proofs.Program.Items
import RadioBroker.Proofs.Program.Routines
import RadioBroker.Proofs.TypeGraph.Completion

/-!
# What registrations refer to

A program registers services when it starts, in its routines, and generic definitions when they are
first used, in their broker classes. Each registration names the broker class of the definition of
its service, which is generated once, and gives it type arguments. These are as many as the class
has type parameters, unless a closed type is declared that applies its definition to another number
of arguments; closed types that a build adds never do.
-/

namespace RadioBroker

/-! ## The registrations of a program -/

/-- All registrations of a program: its routines make them when they run, the broker classes of
generic definitions when these are first used. -/
def Program.registrations (program : Program) : List Registration :=
  program.routines.flatMap Routine.registrations ++
    program.brokerClasses.filterMap BrokerClass.selfRegistration

/-- A program registers what its root routine, the routines of its scopes and its broker classes
register. -/
theorem Outline.mem_registrations_iff {outline : Outline} {hook : ModuleHook}
    {registration : Registration} :
    registration ∈ (outline.program hook).registrations ↔
      registration ∈ outline.root.registrations ∨
      (∃ entry ∈ outline.routines, registration ∈ entry.2.registrations) ∨
        ∃ entry ∈ outline.brokers, entry.2.selfRegistration = some registration := by
  rw [Program.registrations, brokerClasses_program, routines_program, List.flatMap_cons,
    List.append_assoc, List.mem_append, List.mem_append, List.flatMap_map, List.mem_flatMap,
    List.filterMap_map, List.mem_filterMap]
  rfl

/-! ## What stands in angle brackets -/

/-- What stands in the angle brackets behind the name of a type. -/
def Generics.bracketed : Generics → List String
  | notGeneric => []
  | openOver parameters => parameters
  | closedOver _ arguments => arguments.map TypeExpr.display

/-- There are angle brackets behind the names of generic types only. -/
theorem Generics.display_eq (generics : Generics) :
    generics.display = if generics = .notGeneric then "" else Text.angled generics.bracketed := by
  cases generics <;> rfl

/-- A definition has the brackets of its parameters. -/
theorem Generics.length_bracketed {generics : Generics} (h : generics.isClosed = false) :
    generics.bracketed.length = generics.parameters.length := by
  cases generics with
  | notGeneric => rfl
  | openOver parameters => rfl
  | closedOver definition arguments => cases h

/-- A declaration of that full name applies its definition to another number of arguments than that
has parameters. -/
def Misapplied (given : List Declaration) (graph : TypeGraph) (name : String) : Prop :=
  ∃ closed ∈ given, closed.fullName = name ∧ ∃ definition arguments,
    closed.generics = .closedOver definition arguments ∧
    ∃ applied ∈ graph.declarations, applied.fullName = definition ∧
      applied.generics.parameters.length ≠ arguments.length

/-- A full name stands for one declaration. -/
theorem TypeGraph.WellFormed.declaration_unique {graph : TypeGraph} (h : graph.WellFormed)
    {first second : Declaration} (hfirst : first ∈ graph.declarations)
    (hsecond : second ∈ graph.declarations) (hname : first.fullName = second.fullName) :
    first = second :=
  List.inj_on_of_nodup_map h.names_nodup hfirst hsecond hname

/-- The brackets of a type hold as many texts as its definition has parameters, unless a given
declaration says otherwise. -/
theorem TypeGraph.length_bracketed_iff {given : List Declaration} {graph : TypeGraph} {id : TypeId}
    {node applied : TypeNode} (hbuild : build given = .ok graph)
    (hnode : graph.node? id = some node)
    (happlied : graph.node? node.definition = some applied) :
    node.declaration.generics.bracketed.length = applied.declaration.generics.parameters.length ↔
      ¬ Misapplied given graph node.declaration.fullName := by
  have hgraph := wellFormed_of_build hbuild
  have hjustified := justified_of_build hbuild
  have hmem : node.declaration ∈ graph.declarations :=
    List.mem_map_of_mem (List.mem_of_getElem? hnode)
  have hdefinition : applied.declaration ∈ graph.declarations :=
    List.mem_map_of_mem (List.mem_of_getElem? happlied)
  have hsame : ∀ closed ∈ given, closed.fullName = node.declaration.fullName →
      closed = node.declaration := fun closed hclosed =>
    hgraph.declaration_unique (hjustified.declared_prefix.subset hclosed) hmem
  cases hgenerics : node.declaration.generics with
  | notGeneric | openOver parameters =>
    have hclosed : node.declaration.generics.isClosed = false := by rw [hgenerics]; rfl
    have hown := hgraph.definition_self hnode hclosed
    rw [definitionOf, hnode, Option.map_some, Option.getD_some] at hown
    rw [hown, hnode] at happlied
    cases happlied
    rw [← hgenerics]
    refine iff_of_true (Generics.length_bracketed hclosed) ?_
    rintro ⟨closed, hgiven, hname, definition, arguments, hshape, _⟩
    rw [hsame closed hgiven hname, hgenerics] at hshape
    cases hshape
  | closedOver definition arguments =>
    have hname : applied.declaration.fullName = definition := by
      have hdeclared := definition_of_build hbuild hnode
      rwa [fullName_of_node happlied, Declaration.definitionName, hgenerics] at hdeclared
    rw [Generics.bracketed, List.length_map, iff_not_comm]
    constructor
    · rintro ⟨closed, hclosed, hclosedName, written, list, hshape, other, hother, hotherName, hne⟩
      rw [hsame closed hclosed hclosedName, hgenerics] at hshape
      cases hshape
      rw [hgraph.declaration_unique hother hdefinition (hotherName.trans hname.symm)] at hne
      exact Ne.symm hne
    · intro hne
      rcases hjustified.mentioned _ hmem with hgiven | ⟨mentioning, _, t, _, hadded⟩
      · exact ⟨_, hgiven, rfl, definition, arguments, hgenerics, _, hdefinition, hname, Ne.symm hne⟩
      · -- What has been added has as many arguments as the definition has parameters.
        obtain ⟨source, hsource, _, _, hclose⟩ := hadded.applied
        obtain ⟨parameters, hopen, hlength, hclosed⟩ := Declaration.close_eq_ok_iff.mp hclose
        rw [← hclosed] at hgenerics
        cases hgenerics
        have hfound := hgraph.declaration_unique hdefinition
          (hjustified.declared_prefix.subset hsource) hname
        rw [hfound, hopen] at hne
        exact absurd hlength.symm hne

namespace ServiceModel

variable {model : ServiceModel} {outline : Outline} {level : List TypeId} {id owner : TypeId}
  {broker : BrokerClass} {registration : Registration}

/-- A registration of a service names the broker class of the definition. -/
structure Resolved (model : ServiceModel) (outline : Outline) (id : TypeId) (broker : BrokerClass)
    (registration : Registration) : Prop where
  service : model.isService id = true
  interface : registration.interface = model.graph.fullName id
  /-- The definition has one broker class, which stands in the scopes of exactly the types around
  the definition. -/
  one : outline.brokersOf (model.graph.definitionOf id) =
    [⟨model.graph.ancestors (model.graph.definitionOf id),
      .broker (model.graph.definitionOf id) broker⟩]
  /-- The class has the parameters of the definition. -/
  parameters : broker.typeParameters =
    (model.genericsOf (model.graph.definitionOf id)).parameters
  /-- The class is named by its path, and what stands in the brackets of the service is its
  arguments. -/
  text : registration.broker =
    Text.qualify
        (((model.graph.parent? (model.graph.definitionOf id)).map model.graph.fullName).getD
          (model.namespaceOf (model.graph.definitionOf id)))
        broker.name ++
      if model.genericsOf id = .notGeneric then "" else Text.angled (model.genericsOf id).bracketed

/-- The path of a broker class is that of its definition, with the name of the class. -/
theorem brokerPath_eq {path : String} (h : model.brokerPath id = .ok path) :
    path = Text.qualify
      (((model.graph.parent? id).map model.graph.fullName).getD (model.namespaceOf id))
      (model.className id) := by
  by_cases hname : model.className id = ""
  · simp [brokerPath, hname] at h
  · have hpath := h.symm.trans (if_neg hname)
    cases hpath
    cases model.graph.parent? id <;> rfl

/-- What stands behind the broker of a service that is no generic definition. -/
theorem brokerArguments_eq (hopen : (model.genericsOf id).isOpen = false) :
    model.brokerArguments id = (model.genericsOf id).display := by
  unfold brokerArguments
  cases hgenerics : model.genericsOf id with
  | notGeneric => rfl
  | closedOver definition arguments => rfl
  | openOver parameters => simp [hgenerics, Generics.isOpen] at hopen

/-- A broker class has the type parameters of its declaration. -/
theorem typeParameters_of_brokerClass {declaration : Declaration}
    (h : model.brokerClass id declaration = .ok broker) :
    broker.typeParameters = declaration.generics.parameters ∧
      model.selfRegistration id = .ok broker.selfRegistration := by
  unfold brokerClass at h
  split at h
  · cases h
  · obtain ⟨_, hself, hresult⟩ := bind_eq_ok_iff.mp h
    cases hresult
    exact ⟨rfl, hself⟩

section

variable (h : model.Analysed) (hacyclic : model.graph.Acyclic)
  (houtline : model.outline = .ok outline)

include h hacyclic houtline

/-- A broker class of an outline is made of the declaration of its service. -/
theorem Analysed.exists_node_of_mem_brokers (hmem : (id, broker) ∈ outline.brokers) :
    model.isService id = true ∧ ∃ node, model.graph.node? id = some node ∧
      model.brokerClass id node.declaration = .ok broker := by
  obtain ⟨after, hwalk, _⟩ := h.walk_of_outline hacyclic houtline
  exact hwalk.exists_node_of_mem hmem

/-- A service is registered with the broker class of its definition, if that is a service which is
reached. -/
theorem Analysed.exists_resolved (hservice : model.isService id = true)
    (hmarked : model.isService (model.graph.definitionOf id) = true)
    (hreached : model.Reached model.graph.IsPartial (model.graph.definitionOf id))
    (hinterface : registration.interface = model.graph.fullName id) {path : String}
    (hpath : model.brokerPath (model.graph.definitionOf id) = .ok path)
    (htext : registration.broker = path ++ (model.genericsOf id).display) :
    ∃ broker, model.Resolved outline id broker registration := by
  obtain ⟨broker, hone, hname⟩ := h.exists_brokersOf_eq hacyclic houtline hmarked hreached
  have hbroker : (model.graph.definitionOf id, broker) ∈ outline.brokers :=
    mem_brokers_iff.mpr ⟨_, hone ▸ List.mem_singleton_self _⟩
  obtain ⟨_, node, hnode, hclass⟩ := h.exists_node_of_mem_brokers hacyclic houtline hbroker
  refine ⟨broker, hservice, hinterface, hone, ?_, ?_⟩
  · rw [(typeParameters_of_brokerClass hclass).1, genericsOf, hnode, Option.map_some,
      Option.getD_some]
  · rw [htext, brokerPath_eq hpath, hname, Generics.display_eq]

/-- What a level registers is registered with the broker classes of the definitions, if these are
reached. -/
theorem Analysed.exists_resolved_of_level {withRoutine : List TypeId} {routine : Routine}
    (hreached : ∀ definition ∈ level, model.Reached model.graph.IsPartial definition)
    (hroutine : model.levelRoutine withRoutine level = .ok routine)
    (hmem : registration ∈ routine.registrations) :
    ∃ id broker, model.Resolved outline id broker registration := by
  obtain ⟨hservices, rfl⟩ := h.levelRoutine_eq_ok_iff.mp hroutine
  obtain ⟨id, hid, rfl⟩ := List.mem_map.mp hmem
  obtain ⟨hdefinition, hservice, hopen⟩ := h.mem_registeredAt_iff.mp hid
  have hmarked := hservices id hid
  obtain ⟨_, path, hpath⟩ | ⟨hnone, _⟩ := h.brokerPath_cases (model.graph.definitionOf id)
  · refine ⟨id, h.exists_resolved hacyclic houtline hservice hmarked (hreached _ hdefinition) rfl
      hpath ?_⟩
    rw [registrationOf, hpath, brokerArguments_eq hopen]
    rfl
  · exact absurd hmarked (by simp [hnone])

/-- What a broker class registers is registered with that class itself. -/
theorem Analysed.exists_resolved_of_selfRegistration (hmem : (owner, broker) ∈ outline.brokers)
    (hself : broker.selfRegistration = some registration) :
    ∃ id broker, model.Resolved outline id broker registration := by
  obtain ⟨around, hplaced⟩ := mem_brokers_iff.mp hmem
  obtain ⟨hservice, hreached, _⟩ := h.of_mem_brokersOf hacyclic houtline hplaced
  obtain ⟨_, node, _, hclass⟩ := h.exists_node_of_mem_brokers hacyclic houtline hmem
  have hregistration := (typeParameters_of_brokerClass hclass).2
  rw [hself] at hregistration
  unfold selfRegistration at hregistration
  split at hregistration
  · rename_i parameters hgenerics
    obtain ⟨path, hpath, hresult⟩ := bind_eq_ok_iff.mp hregistration
    cases hresult
    have hdefinition : model.graph.definitionOf owner = owner :=
      h.definitionOf_eq_self hservice (by rw [hgenerics]; rfl)
    refine ⟨owner, h.exists_resolved hacyclic houtline hservice (hdefinition.symm ▸ hservice)
      (hdefinition.symm ▸ hreached) rfl (hdefinition.symm ▸ hpath) ?_⟩
    rw [hgenerics]
    rfl
  · cases hregistration

/-- Every registration of a program names the broker class of the definition of its service. -/
theorem Analysed.exists_resolved_of_mem {hook : ModuleHook}
    (hmem : registration ∈ (outline.program hook).registrations) :
    ∃ id broker, model.Resolved outline id broker registration := by
  obtain ⟨after, hwalk, hroot⟩ := h.walk_of_outline hacyclic houtline
  rcases Outline.mem_registrations_iff.mp hmem with hstart | ⟨entry, hentry, hnested⟩ |
    ⟨entry, hentry, hself⟩
  · exact h.exists_resolved_of_level hacyclic houtline
      (fun definition hdefinition => ⟨definition, hdefinition, .refl⟩) hroot hstart
  · obtain ⟨withRoutine, hroutine, _⟩ :=
      hwalk.levelRoutine_of_mem h hacyclic h.tidy_rootLevel hentry
    obtain ⟨placement, hplaced, hrout⟩ := Outline.mem_routines_iff.mp hentry
    obtain ⟨declaration, pieces, hscope⟩ := Piece.eq_scope_of_routine? hrout
    refine h.exists_resolved_of_level hacyclic houtline ?_ hroutine hnested
    intro definition hdefinition
    obtain ⟨root, hrootMem, hway⟩ := h.reached_of_mem_placed hacyclic houtline hplaced
    obtain ⟨node, hnode, hdeclaration, hpartial, _⟩ :=
      (h.wellPlaced hacyclic houtline hplaced).scope _ _ _ _ hscope
    rw [hscope] at hway
    exact ⟨root, hrootMem, hway.tail ⟨⟨node, hnode, hdeclaration ▸ hpartial⟩, hdefinition⟩⟩
  · exact h.exists_resolved_of_selfRegistration hacyclic houtline hentry hself

end

/-- The root routine registers the services of the root level. -/
theorem Analysed.registrationOf_mem (h : model.Analysed) (houtline : model.outline = .ok outline)
    (hook : ModuleHook) (hid : id ∈ model.registeredAt model.rootLevel) :
    model.registrationOf id ∈ (outline.program hook).registrations := by
  obtain ⟨_, _, hroot⟩ := cases_of_outline houtline
  obtain ⟨_, hroutine⟩ := h.levelRoutine_eq_ok_iff.mp hroot
  refine Outline.mem_registrations_iff.mpr (Or.inl ?_)
  rw [hroutine]
  exact List.mem_map_of_mem hid

/-- An application of a root is registered by the root level, as is a root that is no definition. -/
theorem Analysed.mem_registeredAt_rootLevel (h : model.Analysed)
    (hroot : model.graph.parent? (model.graph.definitionOf id) = none)
    (hservice : model.isService id = true) (hopen : (model.genericsOf id).isOpen = false) :
    id ∈ model.registeredAt model.rootLevel := by
  have hinstances : model.relations.instancesOf (model.graph.definitionOf id) ≠ [] :=
    h.relations.instancesOf_ne_nil_iff.mpr ⟨id, h.linked id hservice, rfl⟩
  exact h.mem_registeredAt_iff.mpr
    ⟨h.mem_rootLevel_iff.mpr ⟨hroot, hinstances⟩, hservice, hopen⟩

/-- In a program of declarations whose preparation is ready every registration, be it made at the
start or later, names the broker class of the definition of its service, which is generated once,
where the definition is declared. It gives the class as many arguments as that has parameters,
unless a given closed type applies its definition to another number of arguments. -/
theorem registrations_resolved {declarations : List Declaration} {graph : TypeGraph}
    {hook : ModuleHook} {cancelled : Bool} {program : Program}
    (hbuild : TypeGraph.build declarations = .ok graph) (hacyclic : graph.Acyclic)
    (hready : ((ofGraph graph).prepare .empty).outcome = .ready)
    (hprogram : ((ofGraph graph).prepare .empty).model.synthesize hook cancelled = .ok program) :
    ((ofGraph graph).prepare .empty).model.graph = graph ∧
      ∃ outline, ((ofGraph graph).prepare .empty).model.outline = .ok outline ∧
        program = outline.program hook ∧
        ∀ registration ∈ program.registrations, ∃ id broker,
          ((ofGraph graph).prepare .empty).model.Resolved outline id broker registration ∧
          ((((ofGraph graph).prepare .empty).model.genericsOf id).bracketed.length =
              broker.typeParameters.length ↔
            ¬ Misapplied declarations graph registration.interface) := by
  obtain ⟨hgraph, h, _⟩ := analysed_of_prepare hbuild hready
  refine ⟨hgraph, ?_⟩
  obtain ⟨outline, houtline, hresult⟩ := exists_outline_of_synthesize hprogram
  refine ⟨outline, houtline, hresult, ?_⟩
  generalize ((ofGraph graph).prepare .empty).model = model at *
  subst hgraph
  intro registration hmem
  rw [hresult] at hmem
  obtain ⟨id, broker, hresolved⟩ := h.exists_resolved_of_mem hacyclic houtline hmem
  refine ⟨id, broker, hresolved, ?_⟩
  have hid := h.lt_of_isService hresolved.service
  obtain ⟨node, hnode⟩ := TypeGraph.exists_node_iff.mpr hid
  obtain ⟨applied, happlied⟩ := TypeGraph.exists_node_iff.mpr (h.graph.definition_lt hid)
  have hdefinition : model.graph.definitionOf id = node.definition := by
    rw [TypeGraph.definitionOf, hnode, Option.map_some, Option.getD_some]
  rw [hdefinition] at happlied
  have hcount := TypeGraph.length_bracketed_iff hbuild hnode happlied
  rw [hresolved.parameters, hresolved.interface, TypeGraph.fullName_of_node hnode, ← hcount,
    genericsOf, genericsOf, hdefinition, hnode, happlied]
  rfl

/-- A definition, and a service that extends its application to `int`, which is not declared. -/
def addedApplication : List Declaration :=
  [{ (Declaration.ofPath .interface "N" "D").marked.openGeneric ["T"] with
      interfaces := [⟨baseInterfaceName, [], ""⟩] },
   { (Declaration.ofPath .interface "N" "User").marked with
      interfaces := [⟨baseInterfaceName, [], ""⟩, ⟨"N.D", [⟨"int", [], ""⟩], ""⟩] }]

/-- The graph of `addedApplication`. -/
def addedApplicationGraph : TypeGraph :=
  ⟨[⟨addedApplication[0], none, 0⟩, ⟨addedApplication[1], none, 1⟩,
    ⟨addedApplication[0].closeOver ["T"] [⟨"int", [], ""⟩], none, 0⟩]⟩

/-- The application is registered, and every registration gives a broker class as many arguments as
it has parameters. -/
theorem registrations_addedApplication :
    TypeGraph.build addedApplication = .ok addedApplicationGraph ∧ addedApplicationGraph.Acyclic ∧
      ((ofGraph addedApplicationGraph).prepare .empty).outcome = .ready ∧
      ∃ program outline,
        ((ofGraph addedApplicationGraph).prepare .empty).model.synthesize default false =
          .ok program ∧
        program = outline.program default ∧
        (∃ registration ∈ program.registrations, registration.interface = "N.D<int>") ∧
        ∀ registration ∈ program.registrations, ∃ id broker,
          ((ofGraph addedApplicationGraph).prepare .empty).model.Resolved outline id broker
            registration ∧
          (((ofGraph addedApplicationGraph).prepare .empty).model.genericsOf id).bracketed.length =
            broker.typeParameters.length := by
  have hbuild : TypeGraph.build addedApplication = .ok addedApplicationGraph := by rfl
  have hacyclic : addedApplicationGraph.Acyclic := TypeGraph.acyclic_of_lt (by decide)
  have hready : ((ofGraph addedApplicationGraph).prepare .empty).outcome = .ready :=
    outcome_prepare_of_all (by decide)
  obtain ⟨program, hprogram⟩ := exists_program_of_forall_ids hbuild hready default (by decide)
  obtain ⟨hgraph, outline, houtline, hresult, hresolved⟩ :=
    registrations_resolved hbuild hacyclic hready hprogram
  obtain ⟨_, h, _⟩ := analysed_of_prepare hbuild hready
  refine ⟨hbuild, hacyclic, hready, program, outline, hprogram, hresult, ?_, ?_⟩
  · generalize ((ofGraph addedApplicationGraph).prepare .empty).model = model at *
    have hregistered : 2 ∈ model.registeredAt model.rootLevel :=
      h.mem_registeredAt_rootLevel (by rw [hgraph]; rfl) (by rw [h.isService_eq, hgraph]; rfl)
        (by rw [genericsOf, hgraph]; rfl)
    refine ⟨model.registrationOf 2, hresult ▸ h.registrationOf_mem houtline default hregistered, ?_⟩
    rw [registrationOf, hgraph]
    rfl
  · intro registration hmem
    obtain ⟨id, broker, hregistration, hcount⟩ := hresolved registration hmem
    refine ⟨id, broker, hregistration, hcount.mpr ?_⟩
    -- No application is declared.
    rintro ⟨closed, hclosed, _, definition, arguments, hshape, _⟩
    have hnone : ∀ closed ∈ addedApplication, closed.generics.isClosed = false := by decide
    have hopen := hnone closed hclosed
    rw [hshape] at hopen
    cases hopen

/-- A definition over one parameter, and a type that applies it to two arguments. -/
def appliedToTwo : List Declaration :=
  [{ (Declaration.ofPath .interface "N" "D").marked.openGeneric ["T"] with
      interfaces := [⟨baseInterfaceName, [], ""⟩] },
   { Declaration.ofPath .interface "N" "D" with
      fullName := "N.D<int, string>"
      generics := .closedOver "N.D<T>" [⟨"int", [], ""⟩, ⟨"string", [], ""⟩]
      interfaces := [⟨baseInterfaceName, [], ""⟩] }]

/-- The graph of `appliedToTwo`. -/
def appliedToTwoGraph : TypeGraph :=
  ⟨[⟨appliedToTwo[0], none, 0⟩, ⟨appliedToTwo[1], none, 0⟩]⟩

/-- The application is registered with two arguments for a broker class with one parameter. -/
theorem registrations_appliedToTwo :
    TypeGraph.build appliedToTwo = .ok appliedToTwoGraph ∧ appliedToTwoGraph.Acyclic ∧
      ((ofGraph appliedToTwoGraph).prepare .empty).outcome = .ready ∧
      ∃ (program : Program) (outline : Outline) (broker : BrokerClass)
        (registration : Registration),
        ((ofGraph appliedToTwoGraph).prepare .empty).model.synthesize default false = .ok program ∧
        program = outline.program default ∧ outline.brokersOf 0 = [⟨[], .broker 0 broker⟩] ∧
        broker.typeParameters = ["T"] ∧ registration ∈ program.registrations ∧
        registration.interface = "N.D<int, string>" ∧
        registration.broker = Text.qualify "N" broker.name ++ "<int, string>" := by
  have hbuild : TypeGraph.build appliedToTwo = .ok appliedToTwoGraph := by rfl
  have hacyclic : appliedToTwoGraph.Acyclic := TypeGraph.acyclic_of_lt (by decide)
  have hready : ((ofGraph appliedToTwoGraph).prepare .empty).outcome = .ready :=
    outcome_prepare_of_all (by decide)
  obtain ⟨program, hprogram⟩ := exists_program_of_forall_ids hbuild hready default (by decide)
  obtain ⟨hgraph, h, _⟩ := analysed_of_prepare hbuild hready
  obtain ⟨outline, houtline, hresult⟩ := exists_outline_of_synthesize hprogram
  refine ⟨hbuild, hacyclic, hready, program, outline, ?_⟩
  generalize ((ofGraph appliedToTwoGraph).prepare .empty).model = model at *
  have hservice : model.isService 1 = true := by
    rw [h.isService_eq, hgraph]
    rfl
  have hregistered : 1 ∈ model.registeredAt model.rootLevel :=
    h.mem_registeredAt_rootLevel (by rw [hgraph]; rfl) hservice (by rw [genericsOf, hgraph]; rfl)
  have hmem := h.registrationOf_mem houtline default hregistered
  obtain ⟨id, broker, hresolved⟩ :=
    h.exists_resolved_of_mem (hgraph.symm ▸ hacyclic) houtline hmem
  have hid : 1 = id := h.graph.fullName_inj (h.lt_of_isService hservice)
    (h.lt_of_isService hresolved.service) hresolved.interface
  subst hid
  have hone := hresolved.one
  have hparameters := hresolved.parameters
  have htext := hresolved.text
  simp only [genericsOf, namespaceOf, hgraph] at hone hparameters htext
  exact ⟨broker, model.registrationOf 1, hprogram, hresult, hone, hparameters, hresult ▸ hmem,
    by rw [registrationOf, hgraph]; rfl, htext⟩

end ServiceModel

end RadioBroker
