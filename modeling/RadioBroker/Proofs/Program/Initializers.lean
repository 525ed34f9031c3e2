import RadioBroker.Proofs.Program.Startup

/-!
# Which routines are called

The scope of a type gets a routine where there is something to register below it, unless the type is
a generic definition. A generic definition calls nothing. So the routine of a type is called,
through those of all types around it, exactly if none of these is a generic definition; a routine
that stands inside the scope of a generic definition is never run.
-/

namespace RadioBroker

open Relation

/-- The routine of the type with a name is called from the root routine, be it directly or by
another routine that is. -/
inductive Outline.Called (graph : TypeGraph) (outline : Outline) : String → Prop
  | root {name : String} (hname : name ∈ outline.root.childCalls) : Called graph outline name
  | nested {caller name : String} {routine : Routine} (hcaller : Called graph outline caller)
      (hroutine : Piece.Initializes graph outline.pieces caller routine)
      (hname : name ∈ routine.childCalls) : Called graph outline name

namespace ServiceModel

variable {model : ServiceModel} {before after withRoutine level : List TypeId}
    {parent : Option TypeId}
  {pieces : List Piece} {owner top x : TypeId} {routine : Routine} {name : String}
  {outline : Outline}

/-! ## Which types get a routine -/

/-- A routine that is not empty registers something of its level, or calls a definition of it. -/
theorem Analysed.cases_of_levelRoutine (h : model.Analysed)
    (hroutine : model.levelRoutine withRoutine level = .ok routine)
    (hbusy : routine.isEmpty = false) :
    (∃ x, x ∈ model.registeredAt level) ∨ ∃ child ∈ level, child ∈ withRoutine := by
  obtain ⟨_, rfl⟩ := h.levelRoutine_eq_ok_iff.mp hroutine
  rw [Routine.isEmpty, Bool.and_eq_false_iff] at hbusy
  refine hbusy.imp ?_ ?_
  · intro hregisters
    rw [List.isEmpty_map] at hregisters
    exact List.isEmpty_eq_false_iff_exists_mem.mp hregisters
  · intro hcalls
    simpa [List.isEmpty_eq_false_iff_exists_mem] using hcalls

/-- The routine of a level in a type does something, and the type is no generic definition. -/
theorem of_nestedRoutine_eq_some
    (h : model.nestedRoutine withRoutine owner level = .ok (some routine)) :
    (model.genericsOf owner).isOpen = false ∧ model.levelRoutine withRoutine level = .ok routine ∧
      routine.isEmpty = false := by
  rcases nestedRoutine_cases h with ⟨_, hnone⟩ | ⟨hopen, _, made, hmade, hresult⟩
  · cases hnone
  · split at hresult
    · cases hresult
    · rename_i hbusy
      cases hresult
      exact ⟨hopen, hmade, Bool.not_eq_true _ ▸ hbusy⟩

/-- A type gets a routine only if there is something to register below it. -/
theorem Walk.exists_registeredBelow (h : model.Analysed) (hacyclic : model.graph.Acyclic)
    (hwalk : Walk model before level pieces after) (htidy : model.Tidy parent before level)
    (howner : owner ∈ Piece.owners pieces) : ∃ x, model.RegisteredBelow [owner] x := by
  induction hwalk generalizing parent owner with
  | nil => cases howner
  | stay _ hown _ _ ih =>
      rw [owners_stayed hown] at howner
      exact ih htidy.tail howner
  | @enter before nestedAfter after level id node own nestedPieces pieces initializer
      hnode hown hpartial nested hinitializer _ hnested hrest =>
      rw [owners_entered hown, List.mem_append, List.mem_append] at howner
      rcases howner with (hself | hbelow) | hlater
      · cases initializer with
        | none => cases hself
        | some routine =>
            obtain rfl : owner = id := List.mem_singleton.mp hself
            obtain ⟨hopen, hmade, hbusy⟩ := of_nestedRoutine_eq_some hinitializer
            have hhosting : model.Hosting owner := ⟨⟨node, hnode, hpartial⟩, hopen⟩
            simp only [h.registeredBelow_singleton_iff hhosting]
            rcases h.cases_of_levelRoutine hmade hbusy with ⟨x, hx⟩ | ⟨child, hchild, hcalled⟩
            · exact ⟨x, Or.inl hx⟩
            · rcases nested.mem_after_iff.mp hcalled with hearly | hchildOwner
              · exact absurd .refl ((htidy.nested h).fresh child hearly child hchild)
              · obtain ⟨x, hservice, hnotOpen, _, htop, hway⟩ :=
                  hnested (htidy.nested h) hchildOwner
                cases List.mem_singleton.mp htop
                exact ⟨x, Or.inr ⟨hservice, hnotOpen, child, hchild, hway⟩⟩
      · exact hnested (htidy.nested h) hbelow
      · exact hrest (htidy.rest h hacyclic nested initializer) hlater

/-- A type that is reached through partial types gets a routine if there is something to register
below it. -/
theorem Walk.mem_owners_of_registeredBelow (h : model.Analysed) (hacyclic : model.graph.Acyclic)
    (hwalk : Walk model before level pieces after) (htidy : model.Tidy parent before level)
    (htop : top ∈ level) (hway : ReflTransGen (model.Passes model.graph.IsPartial) top owner)
    (hx : model.RegisteredBelow [owner] x) : owner ∈ Piece.owners pieces := by
  induction hwalk generalizing parent top with
  | nil => cases htop
  | @stay before after level id node own pieces hnode hown hpartial _ ih =>
      rw [owners_stayed hown]
      rcases List.mem_cons.mp htop with rfl | hlater
      · have hnot := TypeGraph.not_isPartial hnode hpartial
        cases eq_of_way_of_not hnot hway
        exact absurd (hosting_of_registeredBelow hx).1.1 hnot
      · exact ih htidy.tail hlater hway
  | @enter before nestedAfter after level id node own nestedPieces pieces initializer
      _ hown _ nested hinitializer _ hnested hrest =>
      rw [owners_entered hown, List.mem_append, List.mem_append]
      rcases List.mem_cons.mp htop with rfl | hlater
      · rcases ReflTransGen.cases_head hway with rfl | ⟨child, hstep, hrestWay⟩
        · obtain ⟨hhosting, hchildren⟩ := hosting_of_registeredBelow hx
          rcases nestedRoutine_cases hinitializer with
            ⟨hopen | hempty, _⟩ | ⟨_, _, routine, hmade, hresult⟩
          · simp [hhosting.2] at hopen
          · exact absurd hempty hchildren
          · refine Or.inl (Or.inl ?_)
            obtain ⟨inner, hinner⟩ := nested.exists_levelRun h hacyclic (htidy.nested h)
            -- A routine that does nothing would register nothing below the type.
            cases hidle : routine.isEmpty with
            | false => simp [hresult, hidle]
            | true =>
                obtain ⟨hregistered, rfl⟩ := hinner.eq_nil_of_isEmpty h hmade hidle
                rw [h.registeredBelow_singleton_iff hhosting, hregistered, ← hinner.mem_iff] at hx
                simp at hx
        · exact Or.inl (Or.inr (hnested (htidy.nested h) hstep.2 hrestWay))
      · exact Or.inr (hrest (htidy.rest h hacyclic nested initializer) hlater hway)

/-! ## Which routines are called -/

/-- The routine of a type below the level of a walk is called by the type around it, unless that is
a generic definition. -/
theorem Walk.called_of_mem_owners (h : model.Analysed)
    (hwalk : Walk model before level pieces after) (howner : owner ∈ Piece.owners pieces) :
    owner ∈ level ∨ ∃ outer, model.graph.Encloses outer owner ∧
      ((model.genericsOf outer).isOpen = true ∨
        ∃ routine, (outer, routine) ∈ Piece.routinesIn pieces ∧
          model.graph.fullName owner ∈ routine.childCalls) := by
  induction hwalk with
  | nil => cases howner
  | stay _ hown _ _ ih =>
      rw [owners_stayed hown] at howner
      rw [routinesIn_stayed hown]
      exact (ih howner).imp_left (List.mem_cons_of_mem _)
  | @enter before nestedAfter after level id node own nestedPieces pieces initializer
      hnode hown hpartial nested hinitializer _ hnested hrest =>
      rw [owners_entered hown, List.mem_append, List.mem_append] at howner
      simp only [routinesIn_entered hown, List.mem_append]
      rcases howner with (hself | hbelow) | hlater
      · split at hself
        · exact Or.inl (List.mem_singleton.mp hself ▸ List.mem_cons_self)
        · cases hself
      · rcases hnested hbelow with hchild | ⟨outer, hencloses, hcalls⟩
        · refine Or.inr ⟨id, (h.relations.mem_childrenOf_iff.mp hchild).1, ?_⟩
          rcases nestedRoutine_cases hinitializer with
            ⟨hopen | hempty, _⟩ | ⟨_, _, routine, hmade, hresult⟩
          · exact Or.inl hopen
          · exact absurd hempty (List.ne_nil_of_mem hchild)
          · have hcall : model.graph.fullName owner ∈ routine.childCalls := by
              obtain ⟨_, rfl⟩ := h.levelRoutine_eq_ok_iff.mp hmade
              refine List.mem_map_of_mem (List.mem_filter.mpr ⟨hchild, ?_⟩)
              simpa using nested.mem_after_iff.mpr (Or.inr hbelow)
            have hbusy : routine.isEmpty = false := by
              simp [Routine.isEmpty, List.ne_nil_of_mem hcall]
            refine Or.inr ⟨routine, Or.inl (Or.inl ?_), hcall⟩
            simp [hresult, hbusy]
        · refine Or.inr ⟨outer, hencloses, hcalls.imp_right ?_⟩
          rintro ⟨routine, hmem, hcall⟩
          exact ⟨routine, Or.inl (Or.inr hmem), hcall⟩
      · rcases hrest hlater with htop | ⟨outer, hencloses, hcalls⟩
        · exact Or.inl (List.mem_cons_of_mem _ htop)
        · refine Or.inr ⟨outer, hencloses, hcalls.imp_right ?_⟩
          rintro ⟨routine, hmem, hcall⟩
          exact ⟨routine, Or.inr hmem, hcall⟩

section

variable (h : model.Analysed) (hacyclic : model.graph.Acyclic)
  (houtline : model.outline = .ok outline)

include h hacyclic houtline

/-- A type with a routine is no generic definition. -/
theorem Analysed.not_open_of_mem_routines (hroutine : (owner, routine) ∈ outline.routines) :
    (model.genericsOf owner).isOpen = false := by
  obtain ⟨placement, hmem, hentry⟩ := Outline.mem_routines_iff.mp hroutine
  obtain ⟨declaration, pieces, hscope⟩ := Piece.eq_scope_of_routine? hentry
  obtain ⟨_, _, _, _, hopen⟩ := (h.wellPlaced hacyclic houtline hmem).scope _ _ _ _ hscope
  exact hopen (Option.some_ne_none _)

/-- What is called stands in no generic definition. -/
theorem Analysed.not_open_of_called (hcalled : outline.Called model.graph name) :
    ∃ callee < model.graph.size, model.graph.fullName callee = name ∧
      ∀ outer ∈ model.graph.ancestors callee, (model.genericsOf outer).isOpen = false := by
  obtain ⟨after, hwalk, hroot⟩ := h.walk_of_outline hacyclic houtline
  induction hcalled with
  | root hname =>
      obtain ⟨callee, hlevel, _, rfl⟩ :=
        (h.childCalls_of_levelRoutine h.level_rootLevel hroot).2 _ hname
      obtain ⟨hparent, hinstances⟩ := h.mem_rootLevel_iff.mp hlevel
      refine ⟨callee, h.lt_of_instances hinstances, rfl, ?_⟩
      rw [TypeGraph.ancestors_of_root hparent]
      exact fun _ hmem => absurd hmem List.not_mem_nil
  | nested _ hroutine hname ih =>
      obtain ⟨caller, hcaller, hcallerName, hancestors⟩ := ih
      obtain ⟨outer, hentry, rfl⟩ := hroutine
      obtain ⟨callee, hencloses, _, rfl⟩ :=
        hwalk.exists_of_mem_childCalls h hacyclic h.tidy_rootLevel hentry hname
      have hlt := hwalk.lt_of_mem_owners h h.level_rootLevel (List.mem_map_of_mem hentry)
      cases h.graph.fullName_inj hcaller hlt hcallerName
      refine ⟨callee, hencloses.inner_lt, rfl, ?_⟩
      rw [TypeGraph.ancestors_of_encloses h.graph hacyclic hencloses]
      intro other hother
      rcases List.mem_cons.mp hother with rfl | hfurther
      · exact h.not_open_of_mem_routines hacyclic houtline hentry
      · exact hancestors other hfurther

/-- A routine that stands in no generic definition is called. -/
theorem Analysed.called_of_not_open (hroutine : (owner, routine) ∈ outline.routines)
    (hancestors : ∀ outer ∈ model.graph.ancestors owner, (model.genericsOf outer).isOpen = false) :
    outline.Called model.graph (model.graph.fullName owner) := by
  obtain ⟨after, hwalk, hroot⟩ := h.walk_of_outline hacyclic houtline
  -- The induction is on the chain of enclosing types, innermost first.
  induction hchain : model.graph.ancestors owner generalizing owner routine with
  | nil =>
      have howner := List.mem_map_of_mem (f := Prod.fst) hroutine
      rcases hwalk.called_of_mem_owners h howner with hlevel | ⟨outer, hencloses, _⟩
      · obtain ⟨_, hresult⟩ := h.levelRoutine_eq_ok_iff.mp hroot
        refine .root ?_
        rw [hresult]
        refine List.mem_map_of_mem (List.mem_filter.mpr ⟨hlevel, ?_⟩)
        simpa using hwalk.mem_after_iff.mpr (Or.inr howner)
      · rw [TypeGraph.ancestors_of_encloses h.graph hacyclic hencloses] at hchain
        cases hchain
  | cons outer chain ih =>
      have howner := List.mem_map_of_mem (f := Prod.fst) hroutine
      rcases hwalk.called_of_mem_owners h howner with hlevel | ⟨parent, hencloses, hcalls⟩
      · rw [TypeGraph.ancestors_of_root (h.mem_rootLevel_iff.mp hlevel).1] at hchain
        cases hchain
      · rw [TypeGraph.ancestors_of_encloses h.graph hacyclic hencloses] at hchain hancestors
        cases hchain
        rcases hcalls with hopen | ⟨caller, hcaller, hname⟩
        · simp [hancestors outer List.mem_cons_self] at hopen
        · have houter := ih hcaller
            (fun other hother => hancestors other (List.mem_cons_of_mem _ hother)) rfl
          exact .nested houter ⟨outer, hcaller, rfl⟩ hname

end

/-- Which types of an outline have routines, where these stand, and which of them are called. -/
structure Initialized (model : ServiceModel) (outline : Outline) : Prop where
  /-- Scopes stand in the scopes of the types around their own. None of a generic definition has a
  routine. -/
  placed : ∀ placement ∈ outline.placed, model.WellPlaced placement
  /-- A type that is reached through partial types has a routine if there is something to register
  below it, and no other type has. -/
  exists_iff : ∀ owner, (∃ routine, (owner, routine) ∈ outline.routines) ↔
    model.Reached model.graph.IsPartial owner ∧ ∃ x, model.RegisteredBelow [owner] x
  /-- A routine is called, through others, from the root routine, if no generic definition is around
  its type. Otherwise it is not. -/
  called_iff : ∀ owner routine, (owner, routine) ∈ outline.routines →
    (outline.Called model.graph (model.graph.fullName owner) ↔
      ∀ outer ∈ model.graph.ancestors owner, (model.genericsOf outer).isOpen = false)
  /-- All routines are called exactly if there is nothing to register below a type in a generic
  definition. -/
  all_called_iff : (∀ owner routine, (owner, routine) ∈ outline.routines →
      outline.Called model.graph (model.graph.fullName owner)) ↔
    ∀ owner x, model.Reached model.graph.IsPartial owner → model.RegisteredBelow [owner] x →
      ∀ outer ∈ model.graph.ancestors owner, (model.genericsOf outer).isOpen = false

/-- The routine of a type in an outline is called if no generic definition is around the type, and
otherwise not. -/
theorem Analysed.called_iff (h : model.Analysed) (hacyclic : model.graph.Acyclic)
    (houtline : model.outline = .ok outline) (hroutine : (owner, routine) ∈ outline.routines) :
    outline.Called model.graph (model.graph.fullName owner) ↔
      ∀ outer ∈ model.graph.ancestors owner, (model.genericsOf outer).isOpen = false := by
  refine ⟨?_, h.called_of_not_open hacyclic houtline hroutine⟩
  intro hcalled
  obtain ⟨after, hwalk, _⟩ := h.walk_of_outline hacyclic houtline
  obtain ⟨callee, hcallee, hname, hancestors⟩ := h.not_open_of_called hacyclic houtline hcalled
  have hlt := hwalk.lt_of_mem_owners h h.level_rootLevel (List.mem_map_of_mem hroutine)
  cases h.graph.fullName_inj hcallee hlt hname
  exact hancestors

/-- A type has a routine in an outline exactly if it is reached through partial types and there is
something to register below it. -/
theorem Analysed.exists_routine_iff (h : model.Analysed) (hacyclic : model.graph.Acyclic)
    (houtline : model.outline = .ok outline) :
    (∃ routine, (owner, routine) ∈ outline.routines) ↔
      model.Reached model.graph.IsPartial owner ∧ ∃ x, model.RegisteredBelow [owner] x := by
  obtain ⟨after, hwalk, _⟩ := h.walk_of_outline hacyclic houtline
  have howner : (∃ routine, (owner, routine) ∈ outline.routines) ↔
      owner ∈ Piece.owners outline.pieces := by
    simp [Piece.owners, Outline.routines]
  rw [howner]
  constructor
  · intro hmem
    obtain ⟨placement, hplaced, rfl⟩ := exists_placed_of_mem_owners hmem
    exact ⟨h.reached_of_mem_placed hacyclic houtline hplaced,
      hwalk.exists_registeredBelow h hacyclic h.tidy_rootLevel hmem⟩
  · rintro ⟨⟨root, hroot, hway⟩, x, hx⟩
    exact hwalk.mem_owners_of_registeredBelow h hacyclic h.tidy_rootLevel hroot hway hx

/-- The routines of an outline of an analysed model. -/
theorem Analysed.initialized (h : model.Analysed) (hacyclic : model.graph.Acyclic)
    (houtline : model.outline = .ok outline) : model.Initialized outline where
  placed _ hmem := h.wellPlaced hacyclic houtline hmem
  exists_iff _ := h.exists_routine_iff hacyclic houtline
  called_iff _ _ hroutine := h.called_iff hacyclic houtline hroutine
  all_called_iff := by
    constructor
    · intro hall owner x hreached hx
      obtain ⟨routine, hroutine⟩ :=
        (h.exists_routine_iff hacyclic houtline).mpr ⟨hreached, x, hx⟩
      exact (h.called_iff hacyclic houtline hroutine).mp (hall owner routine hroutine)
    · intro hquiet owner routine hroutine
      obtain ⟨hreached, x, hx⟩ := (h.exists_routine_iff hacyclic houtline).mp ⟨routine, hroutine⟩
      exact (h.called_iff hacyclic houtline hroutine).mpr (hquiet owner x hreached hx)

/-- In a program of declarations whose preparation is ready a type has a routine if it is reached
through partial types and there is something to register below it. The routine is called exactly if
no generic definition is around the type. -/
theorem initializers_called_iff {declarations : List Declaration} {graph : TypeGraph}
    {hook : ModuleHook} {cancelled : Bool} {program : Program}
    (hbuild : TypeGraph.build declarations = .ok graph) (hacyclic : graph.Acyclic)
    (hready : ((ofGraph graph).prepare .empty).outcome = .ready)
    (hprogram : ((ofGraph graph).prepare .empty).model.synthesize hook cancelled = .ok program) :
    ((ofGraph graph).prepare .empty).model.graph = graph ∧
      ∃ outline, ((ofGraph graph).prepare .empty).model.outline = .ok outline ∧
        program = outline.program hook ∧
        ((ofGraph graph).prepare .empty).model.Initialized outline := by
  obtain ⟨hgraph, h, _⟩ := analysed_of_prepare hbuild hready
  refine ⟨hgraph, ?_⟩
  obtain ⟨outline, houtline, hresult⟩ := exists_outline_of_synthesize hprogram
  exact ⟨outline, houtline, hresult, h.initialized (hgraph.symm ▸ hacyclic) houtline⟩

/-- A type that hosts routines has one if a service stands in it that is no generic definition, all
types around the service are partial, and none of them is closed. -/
theorem Analysed.exists_routine_of_encloses (h : model.Analysed) (hacyclic : model.graph.Acyclic)
    (houtline : model.outline = .ok outline) (hservice : model.isService x = true)
    (hopen : (model.genericsOf x).isOpen = false)
    (hencloses : model.graph.Encloses owner (model.graph.definitionOf x))
    (hhosting : model.Hosting owner)
    (hancestors : ∀ outer ∈ model.graph.ancestors (model.graph.definitionOf x),
      model.graph.IsPartial outer ∧ (model.genericsOf outer).isClosed = false) :
    ∃ routine, (owner, routine) ∈ outline.routines := by
  have hinstances : model.relations.instancesOf (model.graph.definitionOf x) ≠ [] :=
    h.relations.instancesOf_ne_nil_iff.mpr ⟨x, h.linked x hservice, rfl⟩
  have happlied := h.instancesOf_of_mem_ancestors hacyclic hinstances
    (fun outer houter => (hancestors outer houter).2)
  rw [TypeGraph.ancestors_of_encloses h.graph hacyclic hencloses] at hancestors happlied
  refine (h.exists_routine_iff hacyclic houtline).mpr ⟨?_, x, ?_⟩
  · refine h.reached_of_ancestors hacyclic (happlied owner List.mem_cons_self) ?_
    intro outer houter
    exact ⟨(hancestors outer (List.mem_cons_of_mem _ houter)).1,
      happlied outer (List.mem_cons_of_mem _ houter)⟩
  · exact ⟨hservice, hopen, owner, List.mem_cons_self,
      .single (h.passes_of_encloses hencloses hhosting hinstances)⟩

/-- A service in a partial type in another one. -/
def nestedService : List Declaration :=
  [(Declaration.ofPath .classType "N" "Outer").asPartial,
   (Declaration.ofPath .classType "N" "Outer.Mid").asPartial,
   { (Declaration.ofPath .interface "N" "Outer.Mid.I").marked with
      interfaces := [⟨baseInterfaceName, [], ""⟩] }]

/-- The graph of `nestedService`. -/
def nestedServiceGraph : TypeGraph :=
  ⟨[⟨nestedService[0], none, 0⟩, ⟨nestedService[1], some 0, 1⟩, ⟨nestedService[2], some 1, 2⟩]⟩

/-- Without generic definitions the inner type has a routine, which is called. -/
theorem initializers_nestedService :
    TypeGraph.build nestedService = .ok nestedServiceGraph ∧ nestedServiceGraph.Acyclic ∧
      ((ofGraph nestedServiceGraph).prepare .empty).outcome = .ready ∧
      ∃ (program : Program) (outline : Outline),
        ((ofGraph nestedServiceGraph).prepare .empty).model.synthesize default false = .ok program ∧
        program = outline.program default ∧ (∃ routine, (1, routine) ∈ outline.routines) ∧
        outline.Called nestedServiceGraph "N.Outer.Mid" := by
  have hbuild : TypeGraph.build nestedService = .ok nestedServiceGraph := by rfl
  have hacyclic : nestedServiceGraph.Acyclic := TypeGraph.acyclic_of_lt (by decide)
  have hready : ((ofGraph nestedServiceGraph).prepare .empty).outcome = .ready :=
    outcome_prepare_of_all (by decide)
  obtain ⟨program, hprogram⟩ := exists_program_of_forall_ids hbuild hready default (by decide)
  obtain ⟨hgraph, outline, houtline, hresult, hinitialized⟩ :=
    initializers_called_iff hbuild hacyclic hready hprogram
  obtain ⟨_, h, _⟩ := analysed_of_prepare hbuild hready
  refine ⟨hbuild, hacyclic, hready, program, outline, hprogram, hresult, ?_⟩
  generalize ((ofGraph nestedServiceGraph).prepare .empty).model = model at *
  have hrange : model.graph.ancestors 1 = [0] ∧
      model.graph.ancestors (model.graph.definitionOf 2) = [1, 0] := by
    rw [hgraph]
    exact ⟨rfl, rfl⟩
  have houter : ∀ outer ∈ [1, 0], model.graph.IsPartial outer ∧
      model.genericsOf outer = .notGeneric := by
    simp only [genericsOf, hgraph, List.forall_mem_cons]
    exact ⟨⟨⟨_, rfl, rfl⟩, rfl⟩, ⟨⟨_, rfl, rfl⟩, rfl⟩, fun _ hmem => absurd hmem List.not_mem_nil⟩
  have hroutine : ∃ routine, (1, routine) ∈ outline.routines := by
    refine h.exists_routine_of_encloses (hgraph.symm ▸ hacyclic) houtline (x := 2) ?_ ?_ ?_ ?_ ?_
    · rw [h.isService_eq, hgraph]
      rfl
    · rw [genericsOf, hgraph]
      rfl
    · rw [TypeGraph.Encloses, hgraph]
      rfl
    · obtain ⟨hpartial, hgenerics⟩ := houter 1 (by decide)
      exact ⟨hpartial, by rw [hgenerics]; rfl⟩
    · rw [hrange.2]
      intro outer hmem
      obtain ⟨hpartial, hgenerics⟩ := houter outer hmem
      exact ⟨hpartial, by rw [hgenerics]; rfl⟩
  refine ⟨hroutine, ?_⟩
  obtain ⟨routine, hmem⟩ := hroutine
  have hname : model.graph.fullName 1 = "N.Outer.Mid" := by
    rw [hgraph]
    rfl
  rw [← hgraph, ← hname, hinitialized.called_iff 1 routine hmem, hrange.1]
  intro outer hmem
  rw [(houter outer (List.mem_cons_of_mem _ hmem)).2]
  rfl

/-- A service in a partial type in a partial generic definition. -/
def serviceInGeneric : List Declaration :=
  [((Declaration.ofPath .classType "N" "Box").openGeneric ["T"]).asPartial,
   { (Declaration.ofPath .classType "N" "Mid").asPartial with
      fullName := "N.Box<T>.Mid"
      containingType := some "N.Box<T>" },
   { (Declaration.ofPath .interface "N" "IInner").marked with
      fullName := "N.Box<T>.Mid.IInner"
      containingType := some "N.Box<T>.Mid"
      interfaces := [⟨baseInterfaceName, [], ""⟩] }]

/-- The graph of `serviceInGeneric`. -/
def serviceInGenericGraph : TypeGraph :=
  ⟨[⟨serviceInGeneric[0], none, 0⟩, ⟨serviceInGeneric[1], some 0, 1⟩,
    ⟨serviceInGeneric[2], some 1, 2⟩]⟩

/-- The type in the generic definition gets a routine that is never called. -/
theorem initializers_serviceInGeneric :
    TypeGraph.build serviceInGeneric = .ok serviceInGenericGraph ∧ serviceInGenericGraph.Acyclic ∧
      ((ofGraph serviceInGenericGraph).prepare .empty).outcome = .ready ∧
      ∃ (program : Program) (outline : Outline),
        ((ofGraph serviceInGenericGraph).prepare .empty).model.synthesize default false =
          .ok program ∧
        program = outline.program default ∧
        (((ofGraph serviceInGenericGraph).prepare .empty).model.genericsOf 0).isOpen = true ∧
        (∃ placement ∈ outline.placed, placement.around = [0] ∧
          ∃ routine, placement.piece.routine? = some (1, routine)) ∧
        ¬ outline.Called serviceInGenericGraph "N.Box<T>.Mid" := by
  have hbuild : TypeGraph.build serviceInGeneric = .ok serviceInGenericGraph := by rfl
  have hacyclic : serviceInGenericGraph.Acyclic := TypeGraph.acyclic_of_lt (by decide)
  have hready : ((ofGraph serviceInGenericGraph).prepare .empty).outcome = .ready :=
    outcome_prepare_of_all (by decide)
  obtain ⟨program, hprogram⟩ := exists_program_of_forall_ids hbuild hready default (by decide)
  obtain ⟨hgraph, h, _⟩ := analysed_of_prepare hbuild hready
  obtain ⟨outline, houtline, hresult⟩ := exists_outline_of_synthesize hprogram
  refine ⟨hbuild, hacyclic, hready, program, outline, hprogram, hresult, ?_⟩
  generalize ((ofGraph serviceInGenericGraph).prepare .empty).model = model at *
  have hopen : (model.genericsOf 0).isOpen = true := by
    rw [genericsOf, hgraph]
    rfl
  have hroutine : ∃ routine, (1, routine) ∈ outline.routines := by
    refine h.exists_routine_of_encloses (hgraph.symm ▸ hacyclic) houtline (x := 2) ?_ ?_ ?_ ?_ ?_
    · rw [h.isService_eq, hgraph]
      rfl
    · rw [genericsOf, hgraph]
      rfl
    · rw [TypeGraph.Encloses, hgraph]
      rfl
    · rw [Hosting, genericsOf, hgraph]
      exact ⟨⟨_, rfl, rfl⟩, rfl⟩
    · have hancestors : model.graph.ancestors (model.graph.definitionOf 2) = [1, 0] := by
        rw [hgraph]
        rfl
      rw [hancestors]
      simp only [genericsOf, hgraph, List.forall_mem_cons]
      exact ⟨⟨⟨_, rfl, rfl⟩, rfl⟩, ⟨⟨_, rfl, rfl⟩, rfl⟩, fun _ hmem => absurd hmem List.not_mem_nil⟩
  obtain ⟨routine, hmem⟩ := hroutine
  have hancestors : model.graph.ancestors 1 = [0] := by
    rw [hgraph]
    rfl
  have hname : model.graph.fullName 1 = "N.Box<T>.Mid" := by
    rw [hgraph]
    rfl
  refine ⟨hopen, ?_, ?_⟩
  · obtain ⟨placement, hplaced, hentry⟩ := Outline.mem_routines_iff.mp hmem
    have hplace := (h.wellPlaced (hgraph.symm ▸ hacyclic) houtline hplaced).around
    obtain ⟨_, _, hscope⟩ := Piece.eq_scope_of_routine? hentry
    rw [hscope, Piece.owner, hancestors] at hplace
    exact ⟨placement, hplaced, hplace, routine, hentry⟩
  · rw [← hgraph, ← hname, h.called_iff (hgraph.symm ▸ hacyclic) houtline hmem, hancestors]
    intro hquiet
    simp [hquiet 0 (List.mem_singleton_self 0)] at hopen

end ServiceModel

end RadioBroker
