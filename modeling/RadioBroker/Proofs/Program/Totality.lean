import RadioBroker.Declaration.Builder
import RadioBroker.Proofs.Program.Reach
import RadioBroker.Proofs.Program.Walk

/-!
# When there is a program

An analysed model has a program unless a registration fails, and a registration fails only where a
service is scheduled for it whose definition is no service. The broker of an applied definition is
named after the definition, so a closed type with a marker of its own needs a marked definition.
-/

namespace RadioBroker.ServiceModel

open Relation

variable {model : ServiceModel} {before after level : List TypeId} {pieces : List Piece}
  {id outer x : TypeId} {error : SynthesisError}

/-- A service gets registered by the routine of a level: it is no generic definition, its definition
is reached through partial types, and the type around that, if there is one, is no generic
definition. -/
structure Scheduled (model : ServiceModel) (id : TypeId) : Prop where
  service : model.isService id = true
  not_open : (model.genericsOf id).isOpen = false
  reached : model.Reached model.graph.IsPartial (model.graph.definitionOf id)
  parent : ∀ outer, model.graph.Encloses outer (model.graph.definitionOf id) →
    (model.genericsOf outer).isOpen = false

/-- The types registered below a type that hosts routines are scheduled, if it is reached. -/
theorem Analysed.scheduled_of_mem_children (h : model.Analysed)
    (hreached : model.Reached model.graph.IsPartial outer) (hhosting : model.Hosting outer)
    (hx : x ∈ model.registeredAt (model.relations.childrenOf outer)) : model.Scheduled x := by
  obtain ⟨hchild, hservice, hopen⟩ := h.mem_registeredAt_iff.mp hx
  obtain ⟨root, hroot, hway⟩ := hreached
  refine ⟨hservice, hopen, ⟨root, hroot, hway.tail ⟨hhosting.1, hchild⟩⟩, ?_⟩
  intro other hother
  have hencloses := (h.relations.mem_childrenOf_iff.mp hchild).1
  cases Option.some.inj (hencloses.symm.trans hother)
  exact hhosting.2

/-- The types registered at the root level are scheduled. -/
theorem Analysed.scheduled_of_mem_root (h : model.Analysed)
    (hx : x ∈ model.registeredAt model.rootLevel) : model.Scheduled x := by
  obtain ⟨hroot, hservice, hopen⟩ := h.mem_registeredAt_iff.mp hx
  refine ⟨hservice, hopen, ⟨_, hroot, .refl⟩, ?_⟩
  intro other hother
  have hparent := (h.mem_rootLevel_iff.mp hroot).1
  cases hparent.symm.trans hother

/-- A scheduled type is registered by the root level, or below a type that hosts routines. -/
theorem Analysed.cases_of_scheduled (h : model.Analysed) (hx : model.Scheduled x) :
    x ∈ model.registeredAt model.rootLevel ∨
      ∃ outer, model.Reached model.graph.IsPartial outer ∧ model.Hosting outer ∧
        x ∈ model.registeredAt (model.relations.childrenOf outer) := by
  obtain ⟨root, hroot, hway⟩ := hx.reached
  rcases ReflTransGen.cases_tail hway with heq | ⟨outer, hway, hstep⟩
  · exact Or.inl (h.mem_registeredAt_iff.mpr ⟨heq ▸ hroot, hx.service, hx.not_open⟩)
  · have hopen := hx.parent outer (h.encloses_of_passes hstep)
    exact Or.inr ⟨outer, ⟨root, hroot, hway⟩, ⟨hstep.1, hopen⟩,
      h.mem_registeredAt_iff.mpr ⟨hstep.2, hx.service, hx.not_open⟩⟩

/-! ## Where a failure comes from -/

/-- The broker of a service can always be made. -/
theorem Analysed.exists_ownPieces (h : model.Analysed) (id : TypeId) (declaration : Declaration) :
    ∃ own, model.ownPieces id declaration = .ok own := by
  unfold ownPieces
  split
  · rename_i hservice
    have hname : model.className id ≠ "" := by simp [h.className_eq_empty_iff, hservice]
    have hself : ∃ registration, model.selfRegistration id = .ok registration := by
      unfold selfRegistration
      rcases h.brokerPath_cases id with ⟨_, path, hpath⟩ | ⟨hnone, _⟩
      · rw [hpath]
        split <;> exact ⟨_, rfl⟩
      · simp [hservice] at hnone
    obtain ⟨registration, hregistration⟩ := hself
    rw [brokerClass, if_neg hname, hregistration]
    exact ⟨_, rfl⟩
  · exact ⟨_, rfl⟩

/-- A service whose definition is none stands in the way of a program. -/
def Obstructs (model : ServiceModel) (id : TypeId) : Prop :=
  model.Scheduled id ∧ model.isService (model.graph.definitionOf id) = false

/-- An error that names the definition of a service that stands in the way. -/
def Blames (model : ServiceModel) (error : SynthesisError) : Prop :=
  ∃ id, model.Obstructs id ∧
    error = .unchecked (model.graph.fullName (model.graph.definitionOf id))

/-- The routine of the level in a reached type fails only if something stands in the way. -/
theorem Analysed.blames_of_nestedRoutine (h : model.Analysed) {withRoutine : List TypeId}
    (hreached : model.Reached model.graph.IsPartial id) (hpartial : model.graph.IsPartial id)
    (herror : model.nestedRoutine withRoutine id (model.relations.childrenOf id) =
      .error error) : model.Blames error := by
  unfold nestedRoutine at herror
  split at herror
  · cases herror
  · rename_i hbusy
    rw [Bool.not_eq_true, Bool.or_eq_false_iff] at hbusy
    rcases bind_eq_error_iff.mp herror with hlevel | ⟨_, _, hnever⟩
    · obtain ⟨x, hx, hnone, hblame⟩ := h.exists_of_levelRoutine_eq_error hlevel
      exact ⟨x, ⟨h.scheduled_of_mem_children hreached ⟨hpartial, hbusy.1⟩ hx, hnone⟩, hblame⟩
    · cases hnever

/-- A visit of a reached definition fails only if something stands in the way. -/
theorem Analysed.blames_of_piecesWithin (h : model.Analysed) {depth : Nat}
    {withRoutine : List TypeId} (hreached : model.Reached model.graph.IsPartial id)
    (herror : model.piecesWithin depth withRoutine id = .error error) : model.Blames error := by
  induction depth generalizing id withRoutine with
  | zero => cases herror
  | succ depth ih =>
      cases hnode : model.graph.node? id with
      | none => simp [piecesWithin, hnode] at herror
      | some node =>
          simp only [piecesWithin, hnode] at herror
          split at herror
          · cases herror
          · obtain ⟨own, hown⟩ := h.exists_ownPieces id node.declaration
            rcases bind_eq_error_iff.mp herror with hnever | ⟨_, _, hentered⟩
            · rw [hown] at hnever
              cases hnever
            · split at hentered
              · cases hentered
              · rename_i hpartial
                have hpartial : model.graph.IsPartial id := ⟨node, hnode, by simpa using hpartial⟩
                rcases bind_eq_error_iff.mp hentered with hchildren | ⟨nested, _, hinitializer⟩
                · obtain ⟨child, hchild, reached, hvisit⟩ := exists_error_of_foldlM hchildren
                  obtain ⟨root, hroot, hway⟩ := hreached
                  have hstep : model.Passes model.graph.IsPartial id child := ⟨hpartial, hchild⟩
                  rcases bind_eq_error_iff.mp hvisit with hfailed | ⟨_, _, hnever⟩
                  · exact ih ⟨root, hroot, hway.tail hstep⟩ hfailed
                  · cases hnever
                · rcases bind_eq_error_iff.mp hinitializer with hfailed | ⟨_, _, hnever⟩
                  · exact h.blames_of_nestedRoutine hreached hpartial hfailed
                  · cases hnever

/-- The visits of roots fail only if something stands in the way. -/
theorem Analysed.blames_of_unitsOf (h : model.Analysed) {withRoutine : List TypeId}
    {namespaces : List (String × List TypeId)}
    (hroots : ∀ id ∈ namespaces.flatMap Prod.snd, id ∈ model.rootLevel)
    (herror : model.unitsOf withRoutine namespaces = .error error) : model.Blames error := by
  induction namespaces generalizing withRoutine with
  | nil => cases herror
  | cons entry namespaces ih =>
      rw [List.flatMap_cons] at hroots
      rcases bind_eq_error_iff.mp herror with hfirst | ⟨_, _, hlater⟩
      · obtain ⟨root, hroot, _, hvisit⟩ := exists_error_of_foldlM hfirst
        rcases bind_eq_error_iff.mp hvisit with hfailed | ⟨_, _, hnever⟩
        · exact h.blames_of_piecesWithin
            ⟨root, hroots root (List.mem_append_left _ hroot), .refl⟩ hfailed
        · cases hnever
      · rcases bind_eq_error_iff.mp hlater with hfailed | ⟨_, _, hnever⟩
        · exact ih (fun id hid => hroots id (List.mem_append_right _ hid)) hfailed
        · cases hnever

/-- There is an outline unless something stands in the way. -/
theorem Analysed.blames_of_outline (h : model.Analysed) (herror : model.outline = .error error) :
    model.Blames error := by
  rcases bind_eq_error_iff.mp herror with hunits | ⟨_, _, hrest⟩
  · exact h.blames_of_unitsOf (fun _ => id) hunits
  · rcases bind_eq_error_iff.mp hrest with hroot | ⟨_, _, hnever⟩
    · obtain ⟨x, hx, hnone, hblame⟩ := h.exists_of_levelRoutine_eq_error hroot
      exact ⟨x, ⟨h.scheduled_of_mem_root hx, hnone⟩, hblame⟩
    · cases hnever

/-! ## What an outline shows -/

/-- Where a walk goes through a type that hosts routines, the routine below it can be made. -/
theorem Walk.service_of_mem_registeredAt (h : model.Analysed)
    (hwalk : Walk model before level pieces after) {top : TypeId} (htop : top ∈ level)
    (hway : ReflTransGen (model.Passes model.graph.IsPartial) top outer)
    (hhosting : model.Hosting outer)
    (hx : x ∈ model.registeredAt (model.relations.childrenOf outer)) :
    model.isService (model.graph.definitionOf x) = true := by
  induction hwalk generalizing top with
  | nil => cases htop
  | @stay before after level id node own pieces hnode _ hpartial _ ih =>
      rcases List.mem_cons.mp htop with rfl | hlater
      · have hnot := TypeGraph.not_isPartial hnode hpartial
        cases eq_of_way_of_not hnot hway
        exact absurd hhosting.1 hnot
      · exact ih hlater hway
  | @enter before nestedAfter after level id node own nestedPieces pieces initializer
      _ _ _ _ hinitializer _ hnested hrest =>
      rcases List.mem_cons.mp htop with rfl | hlater
      · -- The way ends at the entered type, or goes on through one of its children.
        rcases ReflTransGen.cases_head hway with rfl | ⟨child, hstep, hrestWay⟩
        · have hchild := (h.mem_registeredAt_iff.mp hx).1
          rcases nestedRoutine_cases hinitializer with ⟨hidle, _⟩ | ⟨_, _, routine, hmade, _⟩
          · rcases hidle with hopen | hempty
            · simp [hhosting.2] at hopen
            · rw [hempty] at hchild
              cases hchild
          · exact (h.levelRoutine_eq_ok_iff.mp hmade).1 x hx
        · exact hnested hstep.2 hrestWay
      · exact hrest hlater hway

/-- Where there is an outline nothing stands in the way. -/
theorem Analysed.service_of_scheduled (h : model.Analysed) (hacyclic : model.graph.Acyclic)
    {outline : Outline} (houtline : model.outline = .ok outline) (hx : model.Scheduled x) :
    model.isService (model.graph.definitionOf x) = true := by
  obtain ⟨after, hwalk, hroot⟩ := h.walk_of_outline hacyclic houtline
  rcases h.cases_of_scheduled hx with hmem | ⟨outer, ⟨root, hrootMem, hway⟩, hhosting, hmem⟩
  · exact (h.levelRoutine_eq_ok_iff.mp hroot).1 x hmem
  · exact hwalk.service_of_mem_registeredAt h hrootMem hway hhosting hmem

/-- There is an outline exactly if nothing stands in the way. -/
theorem Analysed.exists_outline_iff (h : model.Analysed) (hacyclic : model.graph.Acyclic) :
    (∃ outline, model.outline = .ok outline) ↔
      ∀ id, model.Scheduled id → model.isService (model.graph.definitionOf id) = true := by
  constructor
  · intro hprogram id hid
    obtain ⟨outline, houtline⟩ := hprogram
    exact h.service_of_scheduled hacyclic houtline hid
  · intro hservices
    cases houtline : model.outline with
    | ok outline => exact ⟨outline, rfl⟩
    | error error =>
        obtain ⟨id, ⟨hid, hnone⟩, _⟩ := h.blames_of_outline houtline
        simp [hservices id hid] at hnone

/-- An analysed model has a program if the definition of each of its services is a service. -/
theorem Analysed.exists_program (h : model.Analysed) (hook : ModuleHook)
    (hservices : ∀ id, model.isService id = true →
      model.isService (model.graph.definitionOf id) = true) :
    ∃ program, model.synthesize hook false = .ok program := by
  rw [synthesize_eq]
  cases houtline : model.outline with
  | ok outline => exact ⟨_, rfl⟩
  | error error =>
      obtain ⟨id, ⟨hid, hnone⟩, _⟩ := h.blames_of_outline houtline
      simp [hservices id hid.service] at hnone

/-- How to see by evaluation that there is a program. -/
theorem exists_program_of_forall_ids {declarations : List Declaration} {graph : TypeGraph}
    (hbuild : TypeGraph.build declarations = .ok graph)
    (hready : ((ofGraph graph).prepare .empty).outcome = .ready) (hook : ModuleHook)
    (hmarked : ∀ id ∈ graph.ids, (graph.serviceBound? id).isSome = true →
      (graph.serviceBound? (graph.definitionOf id)).isSome = true) :
    ∃ program, ((ofGraph graph).prepare .empty).model.synthesize hook false = .ok program := by
  obtain ⟨hgraph, h, _⟩ := analysed_of_prepare hbuild hready
  refine h.exists_program hook ?_
  intro id hid
  have hlt := TypeGraph.mem_ids.mpr (h.lt_of_isService hid)
  rw [h.isService_eq, hgraph] at hid ⊢
  rw [hgraph] at hlt
  exact hmarked id hlt hid

/-- Declarations whose preparation is ready have a program exactly if the definition of each
scheduled service is a service. Otherwise the error names such a definition. -/
theorem synthesize_succeeds_iff {declarations : List Declaration} {graph : TypeGraph}
    (hbuild : TypeGraph.build declarations = .ok graph) (hacyclic : graph.Acyclic)
    (hready : ((ofGraph graph).prepare .empty).outcome = .ready) (hook : ModuleHook) :
    let model := ((ofGraph graph).prepare .empty).model
    ((∃ program, model.synthesize hook false = .ok program) ↔
      ∀ id, model.Scheduled id → model.isService (graph.definitionOf id) = true) ∧
    ∀ error, model.synthesize hook false = .error error →
      ∃ id, model.Scheduled id ∧ model.isService (graph.definitionOf id) = false ∧
        error = .unchecked (graph.fullName (graph.definitionOf id)) := by
  intro model
  obtain ⟨hgraph, h, _⟩ := analysed_of_prepare hbuild hready
  rw [synthesize_eq]
  have houtline := h.exists_outline_iff (hgraph.symm ▸ hacyclic)
  rw [hgraph] at houtline
  constructor
  · rw [← houtline]
    cases model.outline <;> simp [Except.map]
  · intro error herror
    cases hresult : model.outline with
    | ok outline =>
        rw [hresult] at herror
        cases herror
    | error other =>
        rw [hresult] at herror
        cases herror
        obtain ⟨id, ⟨hid, hnone⟩, hblame⟩ := h.blames_of_outline hresult
        rw [hgraph] at hnone hblame
        exact ⟨id, hid, hnone, hblame⟩

/-- A definition without a marker, and an application of it that carries one. -/
def strayMarker : List Declaration :=
  [{ (Declaration.ofPath .interface "T" "IG").openGeneric ["T"] with
      interfaces := [⟨baseInterfaceName, [], ""⟩] },
   { (Declaration.ofPath .interface "T" "IG").markedWithMaxLinks 3 with
      fullName := "T.IG<int>"
      generics := .closedOver "T.IG<T>" [⟨"int", [], ""⟩]
      interfaces := [⟨baseInterfaceName, [], ""⟩] }]

/-- The graph of `strayMarker`. -/
def strayMarkerGraph : TypeGraph :=
  ⟨[⟨strayMarker[0], none, 0⟩, ⟨strayMarker[1], none, 0⟩]⟩

/-- A marker on an application alone prepares well and has no program. -/
theorem synthesize_strayMarker :
    TypeGraph.build strayMarker = .ok strayMarkerGraph ∧ strayMarkerGraph.Acyclic ∧
      ((ofGraph strayMarkerGraph).prepare .empty).outcome = .ready ∧
      ((ofGraph strayMarkerGraph).prepare .empty).model.synthesize default false =
        .error (.unchecked "T.IG<T>") := by
  have hbuild : TypeGraph.build strayMarker = .ok strayMarkerGraph := by rfl
  have hacyclic : strayMarkerGraph.Acyclic := TypeGraph.acyclic_of_lt (by decide)
  have hready : ((ofGraph strayMarkerGraph).prepare .empty).outcome = .ready :=
    outcome_prepare_of_all (by decide)
  obtain ⟨hok, herror⟩ := synthesize_succeeds_iff hbuild hacyclic hready default
  obtain ⟨hgraph, h, _⟩ := analysed_of_prepare hbuild hready
  refine ⟨hbuild, hacyclic, hready, ?_⟩
  generalize ((ofGraph strayMarkerGraph).prepare .empty).model = model at *
  have hmarked : model.isService 1 = true := by
    rw [h.isService_eq, hgraph]
    rfl
  have hunmarked : model.isService 0 = false := by
    rw [h.isService_eq, hgraph]
    rfl
  have hdefinition : model.graph.definitionOf 1 = 0 := by
    rw [hgraph]
    rfl
  have hscheduled : model.Scheduled 1 := by
    refine ⟨hmarked, ?_, ?_, ?_⟩
    · rw [genericsOf, hgraph]
      rfl
    · rw [hdefinition]
      refine h.reached_of_ancestors (hgraph ▸ hacyclic) ?_ ?_
      · exact h.relations.instancesOf_ne_nil_iff.mpr ⟨1, h.linked 1 hmarked, hdefinition⟩
      · rw [TypeGraph.ancestors_of_root (by rw [hgraph]; rfl)]
        exact fun _ hmem => absurd hmem List.not_mem_nil
    · intro outer houter
      rw [hdefinition, TypeGraph.Encloses, hgraph] at houter
      cases houter
  cases hresult : model.synthesize default false with
  | ok program =>
      have hservice : model.isService 0 = true := hok.mp ⟨program, hresult⟩ 1 hscheduled
      simp [hunmarked] at hservice
  | error error =>
      obtain ⟨id, hid, _, rfl⟩ := herror error hresult
      have hlt := h.lt_of_isService hid.service
      rw [hgraph] at hlt
      change id < 2 at hlt
      obtain rfl | rfl : id = 0 ∨ id = 1 := by
        unfold TypeId at *
        omega
      · have hservice := hid.service
        simp [hunmarked] at hservice
      · rfl

end RadioBroker.ServiceModel
