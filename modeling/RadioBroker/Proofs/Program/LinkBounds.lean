import RadioBroker.Proofs.Program.Registrations
import RadioBroker.Proofs.ServiceModel.Markers

/-!
# Bounds on links

What a marker says about the number of links is what is registered. However a program comes about,
each registration in it is made for a service and carries the bound of that service; once the
markers of all types have been read, these are the bounds that the governing markers set, and they
stay so whatever is analysed later.
-/

namespace RadioBroker

namespace ServiceModel

variable {model : ServiceModel} {level withRoutine : List TypeId} {id : TypeId}
  {registration : Registration}

/-! ## Registrations of any model -/

/-- A registration is made for a service and carries its bound on links. -/
def Registers (model : ServiceModel) (registration : Registration) : Prop :=
  ∃ id, model.isService id = true ∧ registration.interface = model.graph.fullName id ∧
    registration.maxLinks = model.maxLinks id

/-- All that is registered in pieces, be it by routines or by broker classes, is registered for
services. -/
structure RegistersIn (model : ServiceModel) (pieces : List Piece) : Prop where
  routines : ∀ entry ∈ Piece.routinesIn pieces, ∀ registration ∈ entry.2.registrations,
    model.Registers registration
  brokers : ∀ entry ∈ Piece.brokersIn pieces, ∀ registration,
    entry.2.selfRegistration = some registration → model.Registers registration

theorem RegistersIn.nil : model.RegistersIn [] := ⟨by simp, by simp⟩

theorem RegistersIn.append {pieces more : List Piece} (hpieces : model.RegistersIn pieces)
    (hmore : model.RegistersIn more) : model.RegistersIn (pieces ++ more) where
  routines := by
    rw [Piece.routinesIn_append]
    exact List.forall_mem_append.mpr ⟨hpieces.routines, hmore.routines⟩
  brokers := by
    rw [Piece.brokersIn_append]
    exact List.forall_mem_append.mpr ⟨hpieces.brokers, hmore.brokers⟩

/-- A level registers its services. -/
theorem registers_of_levelRoutine {routine : Routine}
    (h : model.levelRoutine withRoutine level = .ok routine) :
    ∀ registration ∈ routine.registrations, model.Registers registration := by
  obtain ⟨registrations, hregistrations, hroutine⟩ := bind_eq_ok_iff.mp h
  cases hroutine
  intro registration hmem
  obtain ⟨id, hid, hregistration⟩ := exists_of_mem_mapM hregistrations hmem
  obtain ⟨path, _, hresult⟩ := bind_eq_ok_iff.mp hregistration
  cases hresult
  have hservice := (List.mem_filter.mp hid).2
  rw [Bool.and_eq_true] at hservice
  exact ⟨id, hservice.1, rfl, rfl⟩

/-- A nested level registers its services. -/
theorem registers_of_nestedRoutine {initializer : Option Routine}
    (h : model.nestedRoutine withRoutine id level = .ok initializer) :
    ∀ routine ∈ initializer, ∀ registration ∈ routine.registrations,
      model.Registers registration := by
  rcases nestedRoutine_cases h with ⟨_, rfl⟩ | ⟨_, _, routine, hroutine, rfl⟩
  · exact nofun
  · split
    · exact nofun
    · intro other hother
      cases hother
      exact registers_of_levelRoutine hroutine

/-- The broker class of a service registers that service. -/
theorem registersIn_ownPieces {declaration : Declaration} {own : List Piece}
    (h : model.ownPieces id declaration = .ok own) : model.RegistersIn own := by
  unfold ownPieces at h
  split at h
  · next hservice =>
      obtain ⟨broker, hbroker, hown⟩ := bind_eq_ok_iff.mp h
      cases hown
      refine ⟨by simp [Piece.routines], ?_⟩
      intro entry hentry registration hself
      obtain rfl : entry = (id, broker) := by simpa [Piece.brokers] using hentry
      have hregistration := (typeParameters_of_brokerClass hbroker).2
      rw [hself] at hregistration
      unfold selfRegistration at hregistration
      split at hregistration
      · obtain ⟨path, _, hresult⟩ := bind_eq_ok_iff.mp hregistration
        cases hresult
        exact ⟨id, hservice, rfl, rfl⟩
      · cases hregistration
  · cases h
    exact .nil

/-- Visits one after another register services if each of them does. -/
theorem registersIn_foldlM {visit : List TypeId → TypeId → Except SynthesisError Yield}
    (hvisit : ∀ id withRoutine yielded, visit withRoutine id = .ok yielded →
      model.RegistersIn yielded.pieces) {final : Yield}
    (h : level.foldlM (fun yielded id =>
      Yield.extend yielded fun withRoutine => visit withRoutine id) ⟨[], withRoutine⟩ =
        .ok final) : model.RegistersIn final.pieces := by
  have hkeeps (yielded : Yield) (id : TypeId) (next : Yield)
      (hyielded : model.RegistersIn yielded.pieces)
      (hnext : (yielded.extend fun withRoutine => visit withRoutine id) = .ok next) :
      model.RegistersIn next.pieces := by
    obtain ⟨more, hmore, hresult⟩ := bind_eq_ok_iff.mp hnext
    cases hresult
    exact hyielded.append (hvisit id _ more hmore)
  exact foldlM_invariant hkeeps .nil h

/-- A scope registers services if its routine and what it holds do. -/
theorem RegistersIn.scopeUnlessEmpty {pieces : List Piece} {initializer : Option Routine}
    (hpieces : model.RegistersIn pieces)
    (hroutine : ∀ routine ∈ initializer, ∀ registration ∈ routine.registrations,
      model.Registers registration) (id : TypeId) (declaration : Declaration) :
    model.RegistersIn (Piece.scopeUnlessEmpty id declaration pieces initializer) where
  routines := by
    rw [Piece.routinesIn_scopeUnlessEmpty]
    refine List.forall_mem_append.mpr ⟨fun entry hentry => ?_, hpieces.routines⟩
    obtain ⟨routine, hinitializer, rfl⟩ := Option.map_eq_some_iff.mp (Option.mem_toList.mp hentry)
    exact hroutine routine hinitializer
  brokers := by
    rw [Piece.brokersIn_scopeUnlessEmpty]
    exact hpieces.brokers

/-- A visit registers services, however deep it goes. -/
theorem registersIn_piecesWithin {depth : Nat} {yielded : Yield}
    (h : model.piecesWithin depth withRoutine id = .ok yielded) :
    model.RegistersIn yielded.pieces := by
  induction depth generalizing id withRoutine yielded with
  | zero =>
      cases h
      exact .nil
  | succ depth ih =>
      unfold piecesWithin at h
      split at h
      · cases h
        exact .nil
      · next node hnode =>
          split at h
          · cases h
            exact .nil
          · obtain ⟨own, hown, h⟩ := bind_eq_ok_iff.mp h
            have howned := registersIn_ownPieces hown
            split at h
            · cases h
              exact howned
            · simp only [bind_eq_ok_iff] at h
              obtain ⟨nested, hnested, initializer, hinitializer, hresult⟩ := h
              cases hresult
              have hinside := registersIn_foldlM (fun _ _ _ => ih) hnested
              have hscope := hinside.scopeUnlessEmpty (registers_of_nestedRoutine hinitializer)
                id node.declaration
              have hpieces : (if nested.pieces.isEmpty && initializer.isNone then own
                  else own ++ [.scope id node.declaration nested.pieces initializer]) =
                  own ++ Piece.scopeUnlessEmpty id node.declaration nested.pieces initializer := by
                unfold Piece.scopeUnlessEmpty
                split <;> simp
              exact hpieces ▸ howned.append hscope

/-- The roots of namespaces register services. -/
theorem registersIn_unitsOf {namespaces : List (String × List TypeId)}
    {units : List (String × List Piece)} {after : List TypeId}
    (h : model.unitsOf withRoutine namespaces = .ok (units, after)) :
    model.RegistersIn (units.flatMap Prod.snd) := by
  induction namespaces generalizing withRoutine units with
  | nil =>
      cases h
      exact .nil
  | cons entry namespaces ih =>
      simp only [unitsOf, bind_eq_ok_iff] at h
      obtain ⟨yielded, hyielded, ⟨later, final⟩, hlater, hfinal⟩ := h
      cases hfinal
      have hfirst := registersIn_foldlM (fun _ _ _ => registersIn_piecesWithin) hyielded
      split
      · exact ih hlater
      · rw [List.flatMap_cons]
        exact hfirst.append (ih hlater)

/-- Whatever program comes about, its registrations are made for services and carry their bounds. -/
theorem registers_of_synthesize {hook : ModuleHook} {cancelled : Bool} {program : Program}
    (h : model.synthesize hook cancelled = .ok program) :
    ∀ registration ∈ program.registrations, model.Registers registration := by
  obtain ⟨outline, houtline, rfl⟩ := exists_outline_of_synthesize h
  obtain ⟨after, hunits, hroot⟩ := cases_of_outline houtline
  have hpieces : model.RegistersIn outline.pieces := registersIn_unitsOf hunits
  intro registration hmem
  rcases Outline.mem_registrations_iff.mp hmem with hstart | ⟨entry, hentry, hnested⟩ |
    ⟨entry, hentry, hself⟩
  · exact registers_of_levelRoutine hroot registration hstart
  · exact hpieces.routines entry hentry registration hnested
  · exact hpieces.brokers entry hentry registration hself

/-! ## The bounds of a graph -/

/-- The bounds on links of a model are those that the markers of its graph set, and so are those of
all registrations in programs. -/
structure LinksBound (graph : TypeGraph) (model : ServiceModel) : Prop where
  isService_iff : ∀ id, model.isService id = true ↔ ∃ mark, graph.Governs id mark
  bounded : ∀ id mark bound, graph.Governs id mark → mark.Bounds bound → model.maxLinks id = bound
  /-- No marker, a marker without a bound and a refused one leave the number of links open. -/
  unbounded : ∀ id, (∀ mark bound, graph.Governs id mark → ¬ mark.Bounds bound) →
    model.maxLinks id = 2 ^ 31 - 1
  /-- A registration names a governed type and carries its bound. -/
  registered : ∀ hook cancelled program, model.synthesize hook cancelled = .ok program →
    ∀ registration ∈ program.registrations, ∃ id mark,
      graph.find? registration.interface = some id ∧ graph.Governs id mark ∧
        registration.maxLinks = model.maxLinks id ∧
        1 ≤ registration.maxLinks ∧ registration.maxLinks ≤ 2 ^ 31 - 1

/-- Once all markers have been read, the bounds are those that they set. -/
theorem MarkersRead.linksBound {graph : TypeGraph} (h : model.MarkersRead graph)
    (hgraph : graph.WellFormed) : LinksBound graph model where
  isService_iff := fun _ => h.isService_iff
  bounded := fun _ _ _ => h.maxLinks_eq
  unbounded := fun _ => h.maxLinks_eq_unbounded
  registered := by
    intro hook cancelled program hprogram registration hmem
    obtain ⟨id, hservice, hinterface, hbound⟩ := registers_of_synthesize hprogram registration hmem
    obtain ⟨mark, hmark⟩ := h.isService_iff.mp hservice
    have hid := TypeGraph.lt_of_serviceBound? (TypeGraph.isSome_serviceBound?_iff.mpr ⟨mark, hmark⟩)
    refine ⟨id, mark, ?_, hmark, hbound, hbound ▸ h.maxLinks_bounds id⟩
    rw [hinterface, h.graph_eq]
    exact hgraph.find?_fullName hid

/-- When the markers of all types of a graph that was built have been read, in any order and as
often as one likes, beginning with an empty log, the log holds a report for exactly the markers that
govern a type and have a value that is no bound, each report once. Whatever is analysed from then
on, the bounds on links are those that the markers set, and each registration in a program that is
made carries the bound of the type that it names. -/
theorem linksBound_of_calls {limit : Nat} {declarations : List Declaration} {graph : TypeGraph}
    (hbuild : TypeGraph.buildWithin limit declarations = .ok graph) {calls : List TypeId}
    (hcalls : ∀ id < graph.size, id ∈ calls) :
    let state := AnalysisStep.performAll (ofGraph graph, .empty) (calls.map .configure)
    state.2.pending.Nodup ∧
      (∀ diagnostic, diagnostic ∈ state.2.pending ↔ ∃ id mark found, graph.Governs id mark ∧
        mark.Refused found ∧ diagnostic = ⟨.invalidMaxLinks found, mark.location⟩) ∧
      ∀ later, LinksBound graph (AnalysisStep.performAll state later).1 ∧
        ∀ log, LinksBound graph ((AnalysisStep.performAll state later).1.prepare log).model := by
  intro state
  have hgraph := TypeGraph.wellFormed_of_build hbuild
  obtain ⟨hreading, hread⟩ := readingMarkers_of_calls hcalls
  refine ⟨hreading.tied.nodup.sublist hreading.tied.pending.sublist,
    fun _ => mem_pending_iff hcalls,
    fun later => ?_⟩
  have hlater := hread.performAll later
  exact ⟨hlater.linksBound hgraph, fun log => (hlater.prepare log).linksBound hgraph⟩

/-- A definition whose marker has a text for a bound, two applications of it, one with a marker of
its own that bounds by too much, and a service with three links. -/
def boundedServices : List Declaration :=
  [{ (Declaration.ofPath .interface "N" "IGen").withAttribute
        ⟨"CrossChannel.RadioServiceInterface", [], [("MaxLinks", .string "7")],
          ⟨"Gen.cs", 3, 2⟩⟩ with
      fullName := "N.IGen<T>", generics := .openOver ["T"]
      interfaces := [⟨baseInterfaceName, [], ""⟩] },
   { Declaration.ofPath .interface "N" "IGen" with
      fullName := "N.IGen<int>", generics := .closedOver "N.IGen<T>" [⟨"int", [], ""⟩]
      interfaces := [⟨baseInterfaceName, [], ""⟩] },
   { (Declaration.ofPath .interface "N" "IGen").markedWithMaxLinks (2 ^ 31) with
      fullName := "N.IGen<string>", generics := .closedOver "N.IGen<T>" [⟨"string", [], ""⟩]
      interfaces := [⟨baseInterfaceName, [], ""⟩] },
   { (Declaration.ofPath .interface "N" "IChat").markedWithMaxLinks 3 with
      interfaces := [⟨baseInterfaceName, [], ""⟩] }]

/-- The graph of `boundedServices`. -/
def boundedServicesGraph : TypeGraph :=
  ⟨[⟨boundedServices[0], none, 0⟩, ⟨boundedServices[1], none, 0⟩, ⟨boundedServices[2], none, 0⟩,
    ⟨boundedServices[3], none, 3⟩]⟩

/-- The markers of `boundedServices` have been read from the last type to the first, and one of them
once more. -/
def boundedServicesRead : ServiceModel × DiagnosticLog :=
  AnalysisStep.performAll (ofGraph boundedServicesGraph, .empty)
    ([3, 2, 1, 0, 2].map .configure)

/-- The text that is no bound is reported once, at the definition, and the bound of the chat stays
whatever is done later. -/
theorem linksBound_boundedServices :
    TypeGraph.build boundedServices = .ok boundedServicesGraph ∧
      boundedServicesRead.2.pending =
        [⟨.invalidMaxLinks "2147483648", {}⟩, ⟨.invalidMaxLinks "7", ⟨"Gen.cs", 3, 2⟩⟩] ∧
      boundedServicesGraph.Governs 1 boundedServices[0].attributes[0] ∧
      boundedServices[0].attributes[0].Refused "7" ∧
      (∀ later, (AnalysisStep.performAll boundedServicesRead later).1.maxLinks 3 = 3) ∧
      ∀ log, LinksBound boundedServicesGraph (boundedServicesRead.1.prepare log).model := by
  have hbuild : TypeGraph.build boundedServices = .ok boundedServicesGraph := by rfl
  have hreports : boundedServicesRead.2.pending =
      [⟨.invalidMaxLinks "2147483648", {}⟩, ⟨.invalidMaxLinks "7", ⟨"Gen.cs", 3, 2⟩⟩] := by
        decide +kernel
  obtain ⟨_, _, hlater⟩ := linksBound_of_calls hbuild
    (by decide : ∀ id < boundedServicesGraph.size, id ∈ [3, 2, 1, 0, 2])
  have hchat : boundedServicesGraph.Governs 3 boundedServices[3].attributes[0] :=
    .own rfl ⟨[], [], rfl, .inl rfl, by simp⟩
  have hgen : boundedServicesGraph.Governs 1 boundedServices[0].attributes[0] :=
    .inherited rfl (fun _ hother => absurd hother List.not_mem_nil) rfl rfl
      ⟨[], [], rfl, .inr rfl, by simp⟩
  have hseven : boundedServices[0].attributes[0].Refused "7" :=
    ⟨.string "7", rfl, rfl, fun bound hbound => by cases hbound.1⟩
  have hthree : boundedServices[3].attributes[0].Bounds 3 := ⟨rfl, by decide, by decide⟩
  exact ⟨hbuild, hreports, hgen, hseven,
    fun later => (hlater later).1.bounded 3 _ 3 hchat hthree, (hlater []).2⟩

end ServiceModel

end RadioBroker
