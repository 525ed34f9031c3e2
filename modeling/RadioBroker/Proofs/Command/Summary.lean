import RadioBroker.Command.Check
import RadioBroker.Proofs.Program.Registrations

/-!
# What the check command lists

A check lists every service with the name of its class and its methods. Generation makes a class for
a service if the service and all types around it are applied. So every generated class is listed
with its methods, but a closed type, or a service in one, is listed with the name of a class that is
not generated.
-/

namespace RadioBroker.Command

open ServiceModel

/-! ## The entries of the list -/

/-- What the list says about a method. -/
structure MethodEntry where
  interface : String
  name : String
  kind : DispatchKind
deriving DecidableEq, Repr

namespace MethodEntry

/-- The entry of a method of a service. -/
def ofService (method : ServiceMethod) : MethodEntry :=
  ⟨method.interface, method.name, method.kind⟩

/-- What the list would say about a method of a broker class. -/
def ofBroker (method : BrokerMethod) : MethodEntry :=
  ⟨method.interface, method.name, method.kind⟩

/-- The line of an entry. -/
def text (entry : MethodEntry) : String :=
  "    " ++ entry.interface ++ "." ++ entry.name ++ " [" ++ entry.kind.display ++ "]\n"

/-- Broker methods are listed as the methods that they implement. -/
theorem map_ofBroker {methods : List ServiceMethod} {implementations : List BrokerMethod}
    (h : List.Forall₂ Implements methods implementations) :
    methods.map ofService = implementations.map ofBroker := by
  induction h with
  | nil => rfl
  | cons himplements _ ih =>
      rw [List.map_cons, List.map_cons, ih, ofService, ofBroker, himplements.interface,
        himplements.name, himplements.kind]

end MethodEntry

/-- What the list says about a service. -/
structure ServiceEntry where
  fullName : String
  className : String
  maxLinks : Int
  methods : List MethodEntry
deriving DecidableEq, Repr

/-- The lines of an entry. -/
def ServiceEntry.text (entry : ServiceEntry) : String :=
  entry.fullName ++ " -> " ++ entry.className ++ " (max links: " ++ linksText entry.maxLinks ++
    ")\n" ++ String.join (entry.methods.map MethodEntry.text)

/-- An entry names a broker class and lists exactly its methods, in order. -/
structure ServiceEntry.Announces (entry : ServiceEntry) (broker : BrokerClass) : Prop where
  name : entry.className = broker.name
  methods : entry.methods = broker.methods.map MethodEntry.ofBroker

variable {model : ServiceModel} {outline : Outline} {program : Program} {hook : ModuleHook}
  {id : TypeId} {broker : BrokerClass}

/-- The entry of a service. -/
def entryOf (model : ServiceModel) (id : TypeId) : ServiceEntry where
  fullName := model.graph.fullName id
  className := model.className id
  maxLinks := model.maxLinks id
  methods := (model.methods id).map MethodEntry.ofService

/-- The services of a model, in the order of their declarations. -/
def servicesOf (model : ServiceModel) : List TypeId := model.graph.ids.filter model.isService

/-- The entries of all services. -/
def entries (model : ServiceModel) : List ServiceEntry := (servicesOf model).map (entryOf model)

/-- The class names in the list. -/
def listedNames (model : ServiceModel) : List String :=
  (entries model).map ServiceEntry.className

/-- The list is made of the lines of its entries. -/
theorem summary_eq (model : ServiceModel) :
    summary model = String.join ((entries model).map ServiceEntry.text) := by
  have hlines : ∀ id, serviceLines model id = (entryOf model id).text := by
    intro id
    rw [ServiceEntry.text, entryOf, List.map_map]
    rfl
  rw [summary, entries, servicesOf, List.map_map]
  exact congrArg String.join (List.map_congr_left fun id _ => hlines id)

/-- All services of a model have got entries. -/
theorem mem_servicesOf_iff (h : model.Analysed) :
    id ∈ servicesOf model ↔ model.isService id = true := by
  rw [servicesOf, List.mem_filter, TypeGraph.mem_ids]
  exact and_iff_right_of_imp h.lt_of_isService

theorem listedNames_eq (model : ServiceModel) :
    listedNames model = (servicesOf model).map model.className := by
  rw [listedNames, entries, List.map_map]
  rfl

/-- The services are the types that a marker governs. -/
theorem servicesOf_eq (h : model.Analysed) :
    servicesOf model = model.graph.ids.filter fun id => (model.graph.serviceBound? id).isSome :=
  List.filter_congr fun id _ => h.isService_eq id

/-- The class names in the list are made of the names of the services. -/
theorem listedNames_eq_contracts (h : model.Analysed) :
    listedNames model = (servicesOf model).map fun id => (model.graph.contract id).className := by
  rw [listedNames_eq]
  exact List.map_congr_left fun id hid => h.className_eq ((mem_servicesOf_iff h).mp hid)

/-- A check of declarations whose preparation is ready and reports nothing shows the entries and the
startup hook. -/
theorem checkGraph_of_quiet {m : Type → Type} [Monad m] [LawfulMonad m] [FileAccess m]
    {graph : TypeGraph} (hready : ((ofGraph graph).prepare .empty).outcome = .ready)
    (hquiet : ((ofGraph graph).prepare .empty).delivered = []) (path : String)
    (settings : Settings) :
    checkGraph (m := m) path settings graph =
      pure
        { output := String.join ((entries ((ofGraph graph).prepare .empty).model).map
            ServiceEntry.text) ++ hookLine settings } := by
  simp only [checkGraph, noticesOf, hready, hquiet, List.mapM_nil, pure_bind, summary_eq]
  rfl

/-! ## The entries and the broker classes -/

/-- How the list of a check goes together with the program. -/
structure Summarized (model : ServiceModel) (program : Program) : Prop where
  /-- There is one broker class for each service that is generated, and no other. The entry of the
  service names the class and lists exactly its methods. -/
  announced : ∃ services : List TypeId, services.Nodup ∧
    (∀ id, id ∈ services ↔ id ∈ servicesOf model ∧ model.Generated id) ∧
    List.Forall₂ (fun id broker => (entryOf model id).Announces broker) services
      program.brokerClasses
  /-- If all services are generated, the list names exactly the broker classes. -/
  same : (∀ id ∈ servicesOf model, model.Generated id) →
    (listedNames model).Perm (program.brokerClasses.map BrokerClass.name)
  /-- It does so only then, if no two services have the same class name. -/
  only : (listedNames model).Nodup →
    (∀ name ∈ listedNames model, name ∈ program.brokerClasses.map BrokerClass.name) →
    ∀ id ∈ servicesOf model, model.Generated id
  /-- A service is generated if neither it nor a type around it is closed. -/
  plain : ∀ id ∈ servicesOf model, (model.genericsOf id).isClosed = false →
    (∀ outer ∈ model.graph.ancestors id, (model.genericsOf outer).isClosed = false) →
    model.Generated id

/-- The entry of a service announces its broker class. -/
theorem announces_of_mem_brokers (h : model.Analysed) (hacyclic : model.graph.Acyclic)
    (houtline : model.outline = .ok outline) (hmem : (id, broker) ∈ outline.brokers) :
    (entryOf model id).Announces broker := by
  obtain ⟨hservice, node, _, hclass⟩ := h.exists_node_of_mem_brokers hacyclic houtline hmem
  have hclassified : ∀ method ∈ model.methods id, method.Classified := by
    rw [h.methods_eq_offered hservice]
    exact fun _ => Candidate.classified_of_mem_offered
  constructor
  case name => exact (name_of_brokerClass hclass).symm
  case methods =>
    rw [methods_of_brokerClass hclass]
    exact MethodEntry.map_ofBroker (forall₂_implements hclassified)

/-- Announced broker classes have the class names of their services. -/
theorem map_className_eq {services : List TypeId} {classes : List BrokerClass}
    (h : List.Forall₂ (fun id broker => (entryOf model id).Announces broker) services classes) :
    services.map model.className = classes.map BrokerClass.name := by
  induction h with
  | nil => rfl
  | cons hannounces _ ih => rw [List.map_cons, List.map_cons, ih, ← hannounces.name, entryOf]

section

variable {services : List TypeId}
  (hservices : ∀ id, id ∈ services ↔ id ∈ servicesOf model ∧ model.Generated id)
  (hannounced : List.Forall₂ (fun id broker => (entryOf model id).Announces broker) services
    program.brokerClasses)

include hservices hannounced

/-- If all services are generated, the list names exactly the broker classes that are announced. -/
theorem listedNames_perm (hnodup : services.Nodup)
    (hall : ∀ id ∈ servicesOf model, model.Generated id) :
    (listedNames model).Perm (program.brokerClasses.map BrokerClass.name) := by
  have hperm : (servicesOf model).Perm services := by
    refine (List.perm_ext_iff_of_nodup (List.nodup_range.filter _) hnodup).mpr ?_
    exact fun id => ((hservices id).trans (and_iff_left_of_imp (hall id))).symm
  rw [listedNames_eq, ← map_className_eq hannounced]
  exact hperm.map _

/-- If no two services have the same class name, a service whose class name is that of a broker
class is generated. -/
theorem generated_of_name_mem (hdistinct : (listedNames model).Nodup) (hid : id ∈ servicesOf model)
    (hname : model.className id ∈ program.brokerClasses.map BrokerClass.name) :
    model.Generated id := by
  rw [← map_className_eq hannounced] at hname
  obtain ⟨other, hother, heq⟩ := List.mem_map.mp hname
  obtain ⟨hlisted, hgenerated⟩ := (hservices other).mp hother
  rw [listedNames_eq] at hdistinct
  cases List.inj_on_of_nodup_map hdistinct hlisted hid heq
  exact hgenerated

end

/-- For declarations whose preparation is ready and reports nothing a check shows the startup hook
behind a list with an entry for each service, and the list names the broker classes of the program
with their methods, along with those services that are not generated. -/
theorem check_summarized {declarations : List Declaration} {graph : TypeGraph} {cancelled : Bool}
    (hbuild : TypeGraph.build declarations = .ok graph) (hacyclic : graph.Acyclic)
    (hready : ((ofGraph graph).prepare .empty).outcome = .ready)
    (hquiet : ((ofGraph graph).prepare .empty).delivered = [])
    (hprogram : ((ofGraph graph).prepare .empty).model.synthesize hook cancelled =
      .ok program) :
    (∀ (m : Type → Type) [Monad m] [LawfulMonad m] [FileAccess m] (path : String)
      (settings : Settings),
      checkGraph (m := m) path settings graph =
        pure
          { output :=
              String.join ((entries ((ofGraph graph).prepare .empty).model).map
                ServiceEntry.text) ++ hookLine settings }) ∧
      Summarized ((ofGraph graph).prepare .empty).model program := by
  refine ⟨fun m _ _ _ path settings => checkGraph_of_quiet hready hquiet path settings, ?_⟩
  obtain ⟨hgraph, h, _⟩ := analysed_of_prepare hbuild hready
  obtain ⟨outline, houtline, hresult⟩ := exists_outline_of_synthesize hprogram
  have hlinked := linked_iff_of_prepare hbuild hready
  have hpartial := fun id => @isPartial_of_delivered_eq_nil id _ _ hbuild hready hquiet
  generalize ((ofGraph graph).prepare .empty).model = model at *
  subst hgraph
  have hnodup := h.nodup_brokers hacyclic houtline
  have hservices : ∀ id, id ∈ outline.brokers.map Prod.fst ↔
      id ∈ servicesOf model ∧ model.Generated id := by
    intro id
    rw [mem_servicesOf_iff h, ← h.exists_broker_iff hacyclic houtline hlinked hpartial]
    simp
  have hannounced : List.Forall₂ (fun id broker => (entryOf model id).Announces broker)
      (outline.brokers.map Prod.fst) program.brokerClasses := by
    rw [hresult, Outline.brokerClasses_program, List.forall₂_map_left_iff,
      List.forall₂_map_right_iff, List.forall₂_same]
    exact fun entry hentry => announces_of_mem_brokers h hacyclic houtline hentry
  constructor
  case announced => exact ⟨_, hnodup, hservices, hannounced⟩
  case same => exact listedNames_perm hservices hannounced hnodup
  case only =>
    intro hdistinct hsubset id hid
    refine generated_of_name_mem hservices hannounced hdistinct hid (hsubset _ ?_)
    rw [listedNames_eq]
    exact List.mem_map_of_mem hid
  case plain =>
    intro id hid
    exact h.generated_of_not_closed hacyclic hlinked ((mem_servicesOf_iff h).mp hid)

/-- The list for a service in a type names the one broker class that there is. -/
theorem check_serviceInType :
    TypeGraph.build serviceInType = .ok serviceInTypeGraph ∧ serviceInTypeGraph.Acyclic ∧
      ((ofGraph serviceInTypeGraph).prepare .empty).outcome = .ready ∧
      ((ofGraph serviceInTypeGraph).prepare .empty).delivered = [] ∧
      ∃ program,
        ((ofGraph serviceInTypeGraph).prepare .empty).model.synthesize default false =
          .ok program ∧
        listedNames ((ofGraph serviceInTypeGraph).prepare .empty).model =
          [Naming.brokerClassName "I" "N.Outer.I"] ∧
        program.brokerClasses.map BrokerClass.name = [Naming.brokerClassName "I" "N.Outer.I"] := by
  have hbuild : TypeGraph.build serviceInType = .ok serviceInTypeGraph := by rfl
  have hacyclic : serviceInTypeGraph.Acyclic := TypeGraph.acyclic_of_lt (by decide)
  have hready : ((ofGraph serviceInTypeGraph).prepare .empty).outcome = .ready :=
    outcome_prepare_of_all (by decide)
  have hquiet : ((ofGraph serviceInTypeGraph).prepare .empty).delivered = [] :=
    delivered_eq_nil_of_all (by decide +kernel)
  obtain ⟨program, hprogram⟩ :=
    exists_program_of_forall_ids hbuild hready default (by decide)
  obtain ⟨_, hsummarized⟩ := check_summarized hbuild hacyclic hready hquiet hprogram
  obtain ⟨hgraph, h, _⟩ := analysed_of_prepare hbuild hready
  refine ⟨hbuild, hacyclic, hready, hquiet, program, hprogram, ?_⟩
  generalize ((ofGraph serviceInTypeGraph).prepare .empty).model = model at *
  have hservices : servicesOf model = [1] := by
    rw [servicesOf_eq h, hgraph]
    rfl
  have hgenerated : ∀ id ∈ servicesOf model, model.Generated id := by
    intro id hid
    have hone := hid
    rw [hservices, List.mem_singleton] at hone
    subst hone
    refine hsummarized.plain 1 hid (by rw [genericsOf, hgraph]; rfl) ?_
    rw [hgraph]
    intro outer houter
    cases List.mem_singleton.mp houter
    rw [genericsOf, hgraph]
    rfl
  have hlisted : listedNames model = [Naming.brokerClassName "I" "N.Outer.I"] := by
    rw [listedNames_eq_contracts h, hservices, hgraph]
    rfl
  have hsame := hsummarized.same hgenerated
  rw [hlisted] at hsame
  exact ⟨hlisted, List.perm_singleton.mp hsame.symm⟩

/-- The list for an application that is not declared names a class of its own for it, and there is
no such broker class. -/
theorem check_addedApplication :
    TypeGraph.build addedApplication = .ok addedApplicationGraph ∧ addedApplicationGraph.Acyclic ∧
      ((ofGraph addedApplicationGraph).prepare .empty).outcome = .ready ∧
      ((ofGraph addedApplicationGraph).prepare .empty).delivered = [] ∧
      ∃ program,
        ((ofGraph addedApplicationGraph).prepare .empty).model.synthesize default false =
          .ok program ∧
        listedNames ((ofGraph addedApplicationGraph).prepare .empty).model =
          [Naming.brokerClassName "D" "N.D<T>", Naming.brokerClassName "User" "N.User",
            Naming.brokerClassName "D" "N.D<int>"] ∧
        Naming.brokerClassName "D" "N.D<int>" ∉
          program.brokerClasses.map BrokerClass.name := by
  have hbuild : TypeGraph.build addedApplication = .ok addedApplicationGraph := by rfl
  have hacyclic : addedApplicationGraph.Acyclic := TypeGraph.acyclic_of_lt (by decide)
  have hready : ((ofGraph addedApplicationGraph).prepare .empty).outcome = .ready :=
    outcome_prepare_of_all (by decide)
  have hquiet : ((ofGraph addedApplicationGraph).prepare .empty).delivered = [] :=
    delivered_eq_nil_of_all (by decide +kernel)
  obtain ⟨program, hprogram⟩ :=
    exists_program_of_forall_ids hbuild hready default (by decide)
  obtain ⟨hgraph, h, _⟩ := analysed_of_prepare hbuild hready
  obtain ⟨outline, houtline, hresult⟩ := exists_outline_of_synthesize hprogram
  refine ⟨hbuild, hacyclic, hready, hquiet, program, hprogram, ?_⟩
  generalize ((ofGraph addedApplicationGraph).prepare .empty).model = model at *
  rw [← hgraph] at hacyclic
  constructor
  · have hservices : servicesOf model = [0, 1, 2] := by
      rw [servicesOf_eq h, hgraph]
      rfl
    rw [listedNames_eq_contracts h, hservices, hgraph]
    rfl
  · rw [hresult, Outline.brokerClasses_program, List.map_map]
    intro hname
    obtain ⟨⟨id, broker⟩, hbroker, hsame⟩ := List.mem_map.mp hname
    obtain ⟨around, hplaced⟩ := mem_brokers_iff.mp hbroker
    obtain ⟨hservice, hreached, _⟩ := h.of_mem_brokersOf hacyclic houtline hplaced
    -- A class is made for a definition only, and no definition has that class name.
    obtain ⟨other, ⟨hother, _⟩, rfl⟩ := h.relations.instancesOf_ne_nil_iff.mp
      (h.ancestors_of_reached hacyclic hreached).1
    have hannounced := (announces_of_mem_brokers h hacyclic houtline hbroker).name
    rw [entryOf, h.className_eq hservice] at hannounced
    rw [hgraph] at hannounced hother
    have hnever : ∀ other < 3,
        (addedApplicationGraph.contract (addedApplicationGraph.definitionOf other)).className ≠
          Naming.brokerClassName "D" "N.D<int>" := by
      decide +kernel
    exact hnever other hother (hannounced.trans hsame)

end RadioBroker.Command
