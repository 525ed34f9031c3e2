import RadioBroker.Proofs.Program.Routines
import RadioBroker.Proofs.Program.Totality

/-!
# What a program registers when it starts

When a program starts, its root routine is run: it registers the services of its level and runs the
routines it calls by name, which do the same one level below. `Outline.Performs` is that run. For a
model that is analysed there is exactly one run; it registers each service that is in reach once and
nothing else, and every call finds its routine, which is called from nowhere else.
-/

namespace RadioBroker

open Relation

/-- Running routines by name, one after another, performs registrations. A routine registers first
and then runs the routines that it calls. -/
inductive Runs (initializes : String → Routine → Prop) :
    (names : List String) → (performed : List Registration) → Prop
  | nil : Runs initializes [] []
  | cons {name : String} {routine : Routine} {names : List String}
      {inner later : List Registration} (hroutine : initializes name routine)
      (calls : Runs initializes routine.childCalls inner) (rest : Runs initializes names later) :
      Runs initializes (name :: names) (routine.registrations ++ inner ++ later)

/-- The type with a full name has a routine in pieces. -/
def Piece.Initializes (graph : TypeGraph) (pieces : List Piece) (name : String)
    (routine : Routine) : Prop :=
  ∃ id, (id, routine) ∈ Piece.routinesIn pieces ∧ graph.fullName id = name

/-- Running the root routine performs registrations. -/
def Outline.Performs (graph : TypeGraph) (outline : Outline) (performed : List Registration) :
    Prop :=
  ∃ called, Runs (Piece.Initializes graph outline.pieces) outline.root.childCalls called ∧
    performed = outline.root.registrations ++ called

/-! ## Runs -/

variable {initializes extended : String → Routine → Prop} {names : List String}
  {performed other : List Registration}

/-- Routines that are added change no run. -/
theorem Runs.mono (hextended : ∀ name routine, initializes name routine → extended name routine)
    (h : Runs initializes names performed) : Runs extended names performed := by
  induction h with
  | nil => exact .nil
  | cons hroutine _ _ hcalls hrest => exact .cons (hextended _ _ hroutine) hcalls hrest

/-- Where names have at most one routine, a run is determined. -/
theorem Runs.unique
    (hunique : ∀ name first second, initializes name first → initializes name second →
      first = second)
    (h : Runs initializes names performed) (hother : Runs initializes names other) :
    other = performed := by
  induction h generalizing other with
  | nil =>
      cases hother
      rfl
  | cons hroutine _ _ hcalls hrest =>
      cases hother with
      | cons hotherRoutine calls rest =>
          cases hunique _ _ _ hroutine hotherRoutine
          rw [hcalls calls, hrest rest]

/-- Routines of some pieces are routines of more pieces. -/
theorem Runs.of_subset {graph : TypeGraph} {pieces more : List Piece}
    (h : Runs (Piece.Initializes graph pieces) names performed)
    (hsubset : Piece.routinesIn pieces ⊆ Piece.routinesIn more) :
    Runs (Piece.Initializes graph more) names performed := by
  refine h.mono ?_
  intro name routine hentry
  obtain ⟨owner, howner, hname⟩ := hentry
  exact ⟨owner, hsubset howner, hname⟩

namespace ServiceModel

variable {model : ServiceModel} {before after nestedAfter level xs inner later : List TypeId}
  {parent : Option TypeId} {pieces nestedPieces more : List Piece} {id x : TypeId}

/-! ## The services that a run registers -/

/-- A service that the routines at a level, or those below that these call, register. -/
def RegisteredBelow (model : ServiceModel) (level : List TypeId) (id : TypeId) : Prop :=
  model.isService id = true ∧ (model.genericsOf id).isOpen = false ∧
    ∃ top ∈ level, TransGen (model.Passes model.Hosting) top (model.graph.definitionOf id)

/-- The services that are registered below the first definition of a level, and below the others. -/
theorem registeredBelow_cons : model.RegisteredBelow (id :: level) x ↔
    model.RegisteredBelow [id] x ∨ model.RegisteredBelow level x := by
  simp only [RegisteredBelow, List.mem_cons, List.not_mem_nil, or_false, exists_eq_left,
    or_and_right, exists_or, and_or_left]

/-- The services that are registered below a type: those of the level in it, and those below. -/
theorem Analysed.registeredBelow_singleton_iff (h : model.Analysed) (hhosting : model.Hosting id) :
    model.RegisteredBelow [id] x ↔
      x ∈ model.registeredAt (model.relations.childrenOf id) ∨
        model.RegisteredBelow (model.relations.childrenOf id) x := by
  rw [h.mem_registeredAt_iff]
  simp only [RegisteredBelow, List.mem_singleton, exists_eq_left]
  constructor
  · intro hinside
    obtain ⟨hservice, hopen, hway⟩ := hinside
    rcases TransGen.head'_iff.mp hway with ⟨child, hstep, hrest⟩
    rcases reflTransGen_iff_eq_or_transGen.mp hrest with heq | hbelow
    · exact Or.inl ⟨heq ▸ hstep.2, hservice, hopen⟩
    · exact Or.inr ⟨hservice, hopen, child, hstep.2, hbelow⟩
  · intro hcases
    rcases hcases with ⟨hchild, hservice, hopen⟩ | ⟨hservice, hopen, child, hchild, hbelow⟩
    · exact ⟨hservice, hopen, .single ⟨hhosting, hchild⟩⟩
    · exact ⟨hservice, hopen, .head ⟨hhosting, hchild⟩ hbelow⟩

/-- Where a service is registered below a type, the type hosts routines and has children. -/
theorem hosting_of_registeredBelow (h : model.RegisteredBelow [id] x) :
    model.Hosting id ∧ model.relations.childrenOf id ≠ [] := by
  obtain ⟨_, _, top, htop, hway⟩ := h
  cases List.mem_singleton.mp htop
  obtain ⟨_, hstep, _⟩ := TransGen.head'_iff.mp hway
  exact ⟨hstep.1, List.ne_nil_of_mem hstep.2⟩

/-- What is registered below a type has a definition that the type encloses. -/
theorem Analysed.below_of_registeredBelow (h : model.Analysed)
    (hbelow : model.RegisteredBelow level x) :
    ∃ top ∈ level, TransGen model.graph.Encloses top (model.graph.definitionOf x) := by
  obtain ⟨_, _, top, htop, hway⟩ := hbelow
  exact ⟨top, htop, h.transGen_encloses hway⟩

/-- No service is registered both by a level and below it. -/
theorem Analysed.not_registeredBelow_of_mem (h : model.Analysed) (hacyclic : model.graph.Acyclic)
    (hlevel : model.Level parent level) (hx : x ∈ model.registeredAt level) :
    ¬ model.RegisteredBelow level x := by
  intro hbelow
  obtain ⟨top, htop, hpath⟩ := h.below_of_registeredBelow hbelow
  have hdefinition := (h.mem_registeredAt_iff.mp hx).1
  have hparent : model.graph.parent? top = model.graph.parent? (model.graph.definitionOf x) :=
    (hlevel.parent top htop).trans (hlevel.parent _ hdefinition).symm
  have heq := hacyclic.eq_of_reflTransGen hparent hpath.to_reflTransGen
  exact hacyclic top (heq ▸ hpath)

/-- No service is registered both below the first definition of a level and below the others. -/
theorem Analysed.not_registeredBelow_tail (h : model.Analysed) (hacyclic : model.graph.Acyclic)
    (hlevel : model.Level parent (id :: level)) (hx : model.RegisteredBelow [id] x) :
    ¬ model.RegisteredBelow level x := by
  intro hbelow
  obtain ⟨first, hfirst, hpath⟩ := h.below_of_registeredBelow hx
  cases List.mem_singleton.mp hfirst
  obtain ⟨top, htop, hother⟩ := h.below_of_registeredBelow hbelow
  exact hlevel.not_below_tail hacyclic hpath.to_reflTransGen top htop hother.to_reflTransGen

/-! ## The run of a walk -/

/-- A type gets no routine while the definitions behind it at its level are visited. -/
theorem Walk.notMem_after (h : model.Analysed) (hacyclic : model.graph.Acyclic)
    (hlevel : model.Level parent (id :: level)) (rest : Walk model before level pieces after)
    (hid : id ∉ before) : id ∉ after := by
  intro hmem
  rcases rest.mem_after_iff.mp hmem with hearly | howner
  · exact hid hearly
  · obtain ⟨top, htop, hpath⟩ := rest.exists_top_of_mem_owners h howner
    exact hlevel.not_below_tail hacyclic .refl top htop hpath

/-- A type has no routine yet when the level in it has been visited. -/
theorem Walk.notMem_nestedAfter (h : model.Analysed) (hacyclic : model.graph.Acyclic)
    (htidy : model.Tidy parent before (id :: level))
    (nested : Walk model before (model.relations.childrenOf id) nestedPieces nestedAfter) :
    id ∉ nestedAfter := by
  intro hmem
  rcases nested.mem_after_iff.mp hmem with hearly | howner
  · exact htidy.fresh id hearly id List.mem_cons_self .refl
  · exact hacyclic id (nested.transGen_of_mem_owners h howner)

/-- The run of the routines at a level, by the services that it registers. -/
structure LevelRun (model : ServiceModel) (level : List TypeId) (pieces : List Piece)
    (after xs : List TypeId) : Prop where
  runs : Runs (Piece.Initializes model.graph pieces)
    ((level.filter (· ∈ after)).map model.graph.fullName) (xs.map model.registrationOf)
  nodup : xs.Nodup
  mem_iff : ∀ x, x ∈ xs ↔ model.RegisteredBelow level x

namespace LevelRun

/-- A definition without a routine, below which nothing is to be registered, adds nothing. -/
theorem skip (hrest : model.LevelRun level pieces after later) (hid : id ∉ after)
    (hnone : ∀ x, ¬ model.RegisteredBelow [id] x)
    (hsubset : Piece.routinesIn pieces ⊆ Piece.routinesIn more) :
    model.LevelRun (id :: level) more after later where
  runs := by
    rw [List.filter_cons_of_neg (by simpa using hid)]
    exact hrest.runs.of_subset hsubset
  nodup := hrest.nodup
  mem_iff x := by
    rw [hrest.mem_iff, registeredBelow_cons]
    exact (or_iff_right (hnone x)).symm

/-- A definition with a routine adds what the level in it registers, and what is below that. -/
theorem host (h : model.Analysed) (hacyclic : model.graph.Acyclic)
    (hlevel : model.Level parent (id :: level)) (hhosting : model.Hosting id)
    (hnested : model.LevelRun (model.relations.childrenOf id) nestedPieces nestedAfter inner)
    (hrest : model.LevelRun level pieces after later) (hid : id ∈ after)
    {routine : Routine}
    (hroutine : model.levelRoutine nestedAfter (model.relations.childrenOf id) = .ok routine)
    (hmem : (id, routine) ∈ Piece.routinesIn more)
    (hnestedSubset : Piece.routinesIn nestedPieces ⊆ Piece.routinesIn more)
    (hsubset : Piece.routinesIn pieces ⊆ Piece.routinesIn more) :
    model.LevelRun (id :: level) more after
      (model.registeredAt (model.relations.childrenOf id) ++ inner ++ later) where
  runs := by
    obtain ⟨_, rfl⟩ := h.levelRoutine_eq_ok_iff.mp hroutine
    rw [List.filter_cons_of_pos (by simpa using hid), List.map_cons, List.map_append,
      List.map_append]
    exact .cons ⟨id, hmem, rfl⟩ (hnested.runs.of_subset hnestedSubset)
      (hrest.runs.of_subset hsubset)
  nodup := by
    have hchildren := h.level_childrenOf id
    refine List.Nodup.append (List.Nodup.append (h.nodup_registeredAt hchildren.nodup)
      hnested.nodup ?_) hrest.nodup ?_
    · intro x hx hbelow
      exact h.not_registeredBelow_of_mem hacyclic hchildren hx ((hnested.mem_iff x).mp hbelow)
    · intro x hx hlater
      refine h.not_registeredBelow_tail hacyclic hlevel ?_ ((hrest.mem_iff x).mp hlater)
      rw [h.registeredBelow_singleton_iff hhosting, ← hnested.mem_iff]
      exact List.mem_append.mp hx
  mem_iff x := by
    rw [List.mem_append, List.mem_append, hnested.mem_iff, hrest.mem_iff, registeredBelow_cons,
      h.registeredBelow_singleton_iff hhosting]

end LevelRun

/-- A level whose routine does nothing has nothing to register, nor have the levels below it. -/
theorem LevelRun.eq_nil_of_isEmpty (h : model.Analysed)
    (hnested : model.LevelRun level nestedPieces nestedAfter inner) {routine : Routine}
    (hroutine : model.levelRoutine nestedAfter level = .ok routine)
    (hempty : routine.isEmpty = true) : model.registeredAt level = [] ∧ inner = [] := by
  obtain ⟨_, rfl⟩ := h.levelRoutine_eq_ok_iff.mp hroutine
  simp only [Routine.isEmpty, Bool.and_eq_true, List.isEmpty_iff, List.map_eq_nil_iff] at hempty
  refine ⟨hempty.1, ?_⟩
  have hruns := hnested.runs
  rw [hempty.2, List.map_nil] at hruns
  cases hinner : inner with
  | nil => rfl
  | cons x rest =>
      rw [hinner] at hruns
      cases hruns

/-- Every tidy walk has a run of the routines at its level. -/
theorem Walk.exists_levelRun (h : model.Analysed) (hacyclic : model.graph.Acyclic)
    (hwalk : Walk model before level pieces after) (htidy : model.Tidy parent before level) :
    ∃ xs, model.LevelRun level pieces after xs := by
  induction hwalk generalizing parent with
  | nil => exact ⟨[], .nil, List.nodup_nil, by simp [RegisteredBelow]⟩
  | @stay before after level id node own pieces hnode hown hpartial rest ih =>
      obtain ⟨later, hlater⟩ := ih htidy.tail
      have hfresh : id ∉ before := fun hmem => htidy.fresh id hmem id List.mem_cons_self .refl
      have hhosting : ¬ model.Hosting id := fun hhosting =>
        TypeGraph.not_isPartial hnode hpartial hhosting.1
      refine ⟨later, hlater.skip (rest.notMem_after h hacyclic htidy.toLevel hfresh)
        (fun x hbelow => hhosting (hosting_of_registeredBelow hbelow).1) ?_⟩
      rw [routinesIn_stayed hown]
      exact List.Subset.refl _
  | @enter before nestedAfter after level id node own nestedPieces pieces initializer
      hnode hown hpartial nested hinitializer rest hnested hrest =>
      obtain ⟨inner, hinner⟩ := hnested (htidy.nested h)
      obtain ⟨later, hlater⟩ := hrest (htidy.rest h hacyclic nested initializer)
      have hfresh := nested.notMem_nestedAfter h hacyclic htidy
      have hall :=
        @routinesIn_entered model pieces nestedPieces own id node.declaration initializer hown
      -- Of the pieces only the routines in them matter from here on.
      generalize own ++ Piece.scopeUnlessEmpty id node.declaration nestedPieces initializer ++
        pieces = all at hall
      have hsubset : Piece.routinesIn pieces ⊆ Piece.routinesIn all := by
        rw [hall]
        exact List.subset_append_right _ _
      have hskip : initializer = none → (∀ x, ¬ model.RegisteredBelow [id] x) →
          model.LevelRun (id :: level) all after later := by
        intro hnone hidle
        refine hlater.skip ?_ hidle hsubset
        subst hnone
        exact rest.notMem_after h hacyclic htidy.toLevel hfresh
      rcases nestedRoutine_cases hinitializer with
        ⟨hidle, hnone⟩ | ⟨hopen, _, routine, hmade, hsome⟩
      · refine ⟨later, hskip hnone ?_⟩
        intro x hbelow
        obtain ⟨hhosting, hchildren⟩ := hosting_of_registeredBelow hbelow
        rcases hidle with hopen | hempty
        · simp [hhosting.2] at hopen
        · exact hchildren hempty
      · have hhosting : model.Hosting id := ⟨⟨node, hnode, hpartial⟩, hopen⟩
        -- A routine that does nothing is left out, and then there is nothing to register below.
        split at hsome
        · rename_i hempty
          obtain ⟨hregistered, rfl⟩ := hinner.eq_nil_of_isEmpty h hmade hempty
          refine ⟨later, hskip hsome ?_⟩
          intro x hbelow
          rw [h.registeredBelow_singleton_iff hhosting, hregistered, ← hinner.mem_iff] at hbelow
          simp at hbelow
        · subst hsome
          have hid : id ∈ after := rest.mem_after_iff.mpr (Or.inl List.mem_cons_self)
          refine ⟨_, hinner.host h hacyclic htidy.toLevel hhosting hlater hid hmade ?_ ?_ hsubset⟩
          · rw [hall]
            simp
          · rw [hall]
            intro entry hentry
            exact List.mem_append_left _ (List.mem_append_right _ hentry)

/-! ## The run of a program -/

/-- The services that a program registers when it starts: those whose definition is reached through
types that host routines, without generic definitions. -/
def RegisteredAtStart (model : ServiceModel) (id : TypeId) : Prop :=
  model.isService id = true ∧ (model.genericsOf id).isOpen = false ∧
    model.Reached model.Hosting (model.graph.definitionOf id)

/-- The root level registers its own services, and what is below it. -/
theorem Analysed.registeredAtStart_iff (h : model.Analysed) :
    model.RegisteredAtStart x ↔
      x ∈ model.registeredAt model.rootLevel ∨ model.RegisteredBelow model.rootLevel x := by
  rw [h.mem_registeredAt_iff]
  constructor
  · intro hstart
    obtain ⟨hservice, hopen, root, hroot, hway⟩ := hstart
    rcases reflTransGen_iff_eq_or_transGen.mp hway with heq | hbelow
    · exact Or.inl ⟨heq ▸ hroot, hservice, hopen⟩
    · exact Or.inr ⟨hservice, hopen, root, hroot, hbelow⟩
  · intro hcases
    rcases hcases with ⟨hroot, hservice, hopen⟩ | ⟨hservice, hopen, root, hroot, hbelow⟩
    · exact ⟨hservice, hopen, _, hroot, .refl⟩
    · exact ⟨hservice, hopen, root, hroot, hbelow.to_reflTransGen⟩

/-- The root routine of an outline has a run, which registers each service in reach once. -/
theorem Analysed.exists_performs (h : model.Analysed) (hacyclic : model.graph.Acyclic)
    {outline : Outline} (houtline : model.outline = .ok outline) :
    ∃ xs : List TypeId, outline.Performs model.graph (xs.map model.registrationOf) ∧ xs.Nodup ∧
      ∀ x, x ∈ xs ↔ model.RegisteredAtStart x := by
  obtain ⟨after, hwalk, hroot⟩ := h.walk_of_outline hacyclic houtline
  obtain ⟨xs, hxs⟩ := hwalk.exists_levelRun h hacyclic h.tidy_rootLevel
  obtain ⟨_, hroutine⟩ := h.levelRoutine_eq_ok_iff.mp hroot
  refine ⟨model.registeredAt model.rootLevel ++ xs, ?_, ?_, ?_⟩
  · refine ⟨xs.map model.registrationOf, ?_, ?_⟩
    · rw [hroutine]
      exact hxs.runs
    · rw [hroutine, List.map_append]
  · refine List.Nodup.append (h.nodup_registeredAt h.level_rootLevel.nodup) hxs.nodup ?_
    intro x hx hbelow
    exact h.not_registeredBelow_of_mem hacyclic h.level_rootLevel hx ((hxs.mem_iff x).mp hbelow)
  · intro x
    rw [List.mem_append, hxs.mem_iff, h.registeredAtStart_iff]

/-- A run of the root routine is the only one. -/
theorem Analysed.performs_unique (h : model.Analysed) (hacyclic : model.graph.Acyclic)
    {outline : Outline} (houtline : model.outline = .ok outline)
    {performed other : List Registration} (hperformed : outline.Performs model.graph performed)
    (hother : outline.Performs model.graph other) : other = performed := by
  obtain ⟨after, hwalk, _⟩ := h.walk_of_outline hacyclic houtline
  obtain ⟨_, hruns, rfl⟩ := hperformed
  obtain ⟨_, hotherRuns, rfl⟩ := hother
  rw [hruns.unique ?_ hotherRuns]
  intro name first second hfirst hsecond
  obtain ⟨id, hid, hname⟩ := hfirst
  obtain ⟨twin, htwin, hsame⟩ := hsecond
  have heq := hwalk.routine_unique h hacyclic h.tidy_rootLevel hid htwin (hname.trans hsame.symm)
  exact (Prod.mk.inj heq).2

/-- A service without generic types around its definition is registered at the start, if these types
are all partial. -/
theorem Analysed.registeredAtStart_of_notGeneric (h : model.Analysed)
    (hacyclic : model.graph.Acyclic) (hservice : model.isService id = true)
    (hopen : (model.genericsOf id).isOpen = false)
    (hancestors : ∀ outer ∈ model.graph.ancestors (model.graph.definitionOf id),
      model.graph.IsPartial outer ∧ model.genericsOf outer = .notGeneric) :
    model.RegisteredAtStart id := by
  have hinstances : model.relations.instancesOf (model.graph.definitionOf id) ≠ [] :=
    h.relations.instancesOf_ne_nil_iff.mpr ⟨id, h.linked id hservice, rfl⟩
  refine ⟨hservice, hopen, h.reached_of_ancestors hacyclic hinstances ?_⟩
  intro outer houter
  obtain ⟨hpartial, hgenerics⟩ := hancestors outer houter
  refine ⟨⟨hpartial, by simp [hgenerics, Generics.isOpen]⟩, ?_⟩
  refine h.instancesOf_of_mem_ancestors hacyclic hinstances ?_ outer houter
  intro other hother
  rw [(hancestors other hother).2]
  rfl

/-- What a program registers when it starts, and how its routines call each other. -/
structure StartsOnce (model : ServiceModel) (outline : Outline) (performed : List Registration) :
    Prop where
  /-- The root routine runs to its end, in one way only. -/
  performs_iff : ∀ other, outline.Performs model.graph other ↔ other = performed
  /-- No interface is registered twice. -/
  nodup : (performed.map Registration.interface).Nodup
  /-- Only services are registered that are no generic definitions, and only where all types around
  the definition are partial and no generic definitions either. -/
  sound : ∀ registration ∈ performed, ∃ id, registration.interface = model.graph.fullName id ∧
    model.isService id = true ∧ (model.genericsOf id).isOpen = false ∧
    ∀ outer ∈ model.graph.ancestors (model.graph.definitionOf id),
      model.graph.IsPartial outer ∧ (model.genericsOf outer).isOpen = false
  /-- A service that is no generic definition is registered once, by its name and its bound on
  links, if the types around its definition are partial and not generic. -/
  complete : ∀ id, model.isService id = true → (model.genericsOf id).isOpen = false →
    (∀ outer ∈ model.graph.ancestors (model.graph.definitionOf id),
      model.graph.IsPartial outer ∧ model.genericsOf outer = .notGeneric) →
    ∃ broker, performed.filter (·.interface = model.graph.fullName id) =
      [⟨model.graph.fullName id, broker, model.maxLinks id⟩]
  /-- A routine calls only types that have routines. -/
  calls_initialize : ∀ routine ∈ outline.root :: outline.routines.map Prod.snd,
    ∀ name ∈ routine.childCalls, ∃ callee, Piece.Initializes model.graph outline.pieces name callee
  /-- No type is called twice, be it by one routine or by two. -/
  calls_nodup : ((outline.root :: outline.routines.map Prod.snd).flatMap Routine.childCalls).Nodup

/-- Among the registrations of different services, one has the full name of each. -/
theorem Analysed.filter_registrations_eq (h : model.Analysed) {xs : List TypeId} (hnodup : xs.Nodup)
    (hlt : ∀ x ∈ xs, x < model.graph.size) (hid : id ∈ xs) :
    (xs.map model.registrationOf).filter (·.interface = model.graph.fullName id) =
      [model.registrationOf id] := by
  have hname : ∀ x ∈ xs,
      decide (model.graph.fullName x = model.graph.fullName id) = decide (x = id) := by
    intro x hx
    rw [decide_eq_decide]
    exact ⟨h.graph.fullName_inj (hlt x hx) (hlt id hid), congrArg _⟩
  have honly : xs.filter (fun x => model.graph.fullName x = model.graph.fullName id) = [id] := by
    rw [List.filter_congr hname, List.filter_eq, List.count_eq_one_of_mem hnodup hid]
    rfl
  rw [List.filter_map]
  exact congrArg (List.map model.registrationOf) honly

/-- Each call in an outline is of a type that has got a routine. -/
theorem Analysed.exists_owner_of_childCalls (h : model.Analysed) (hacyclic : model.graph.Acyclic)
    {outline : Outline} (houtline : model.outline = .ok outline) {routine : Routine}
    (hroutine : routine ∈ outline.root :: outline.routines.map Prod.snd) {name : String}
    (hname : name ∈ routine.childCalls) :
    ∃ child ∈ Piece.owners outline.pieces, model.graph.fullName child = name := by
  obtain ⟨after, hwalk, hroot⟩ := h.walk_of_outline hacyclic houtline
  rcases List.mem_cons.mp hroutine with rfl | hnested
  · obtain ⟨child, _, hafter, hchild⟩ :=
      (h.childCalls_of_levelRoutine h.level_rootLevel hroot).2 name hname
    rcases hwalk.mem_after_iff.mp hafter with hnever | howner
    · cases hnever
    · exact ⟨child, howner, hchild⟩
  · obtain ⟨entry, hentry, rfl⟩ := List.mem_map.mp hnested
    obtain ⟨child, _, howner, hchild⟩ :=
      hwalk.exists_of_mem_childCalls h hacyclic h.tidy_rootLevel hentry hname
    exact ⟨child, howner, hchild⟩

/-- The calls of an outline are of different types. -/
theorem Analysed.nodup_childCalls_of_outline (h : model.Analysed) (hacyclic : model.graph.Acyclic)
    {outline : Outline} (houtline : model.outline = .ok outline) :
    ((outline.root :: outline.routines.map Prod.snd).flatMap Routine.childCalls).Nodup := by
  obtain ⟨after, hwalk, hroot⟩ := h.walk_of_outline hacyclic houtline
  rw [List.flatMap_cons, List.flatMap_map]
  have hrootCalls := h.childCalls_of_levelRoutine h.level_rootLevel hroot
  refine List.Nodup.append hrootCalls.1 (hwalk.nodup_childCalls h hacyclic h.tidy_rootLevel) ?_
  intro name hname hother
  obtain ⟨root, hmem, _, rfl⟩ := hrootCalls.2 name hname
  obtain ⟨entry, hentry, hcall⟩ := List.mem_flatMap.mp hother
  obtain ⟨child, hchild, _, heq⟩ :=
    hwalk.exists_of_mem_childCalls h hacyclic h.tidy_rootLevel hentry hcall
  -- The root would be enclosed by the type whose routine calls it as well.
  obtain ⟨hparent, hinstances⟩ := h.mem_rootLevel_iff.mp hmem
  have hsame := h.graph.fullName_inj hchild.inner_lt (h.lt_of_instances hinstances) heq
  rw [hsame, TypeGraph.Encloses, hparent] at hchild
  cases hchild

/-- The outline of an analysed model starts every service in reach once. -/
theorem Analysed.startsOnce (h : model.Analysed) (hacyclic : model.graph.Acyclic)
    {outline : Outline} (houtline : model.outline = .ok outline) :
    ∃ performed, model.StartsOnce outline performed := by
  obtain ⟨xs, hperforms, hnodup, hmem⟩ := h.exists_performs hacyclic houtline
  have hlt : ∀ x ∈ xs, x < model.graph.size := fun x hx => h.lt_of_isService ((hmem x).mp hx).1
  refine ⟨xs.map model.registrationOf, ?_⟩
  constructor
  case performs_iff =>
    intro other
    constructor
    · exact h.performs_unique hacyclic houtline hperforms
    · intro heq
      subst heq
      exact hperforms
  case nodup =>
    rw [List.map_map]
    refine List.Nodup.map_on ?_ hnodup
    intro first hfirst second hsecond heq
    exact h.graph.fullName_inj (hlt first hfirst) (hlt second hsecond) heq
  case sound =>
    intro registration hregistration
    obtain ⟨x, hx, rfl⟩ := List.mem_map.mp hregistration
    obtain ⟨hservice, hopen, hreached⟩ := (hmem x).mp hx
    refine ⟨x, rfl, hservice, hopen, ?_⟩
    intro outer houter
    exact ((h.ancestors_of_reached hacyclic hreached).2 outer houter).1
  case complete =>
    intro id hservice hopen hancestors
    have hid : id ∈ xs :=
      (hmem id).mpr (h.registeredAtStart_of_notGeneric hacyclic hservice hopen hancestors)
    exact ⟨(model.registrationOf id).broker, h.filter_registrations_eq hnodup hlt hid⟩
  case calls_initialize =>
    intro routine hroutine name hname
    obtain ⟨child, howner, hchild⟩ :=
      h.exists_owner_of_childCalls hacyclic houtline hroutine hname
    obtain ⟨entry, hentry, rfl⟩ := List.mem_map.mp howner
    exact ⟨entry.2, entry.1, hentry, hchild⟩
  case calls_nodup => exact h.nodup_childCalls_of_outline hacyclic houtline

/-- A program of declarations whose preparation is ready starts every service in reach once: there
is one run of its root routine, which registers no interface twice, registers the services it has to
and no others, and whose calls all find a routine that is called from nowhere else. -/
theorem startup_registers_once {declarations : List Declaration} {graph : TypeGraph}
    {hook : ModuleHook} {program : Program}
    (hbuild : TypeGraph.build declarations = .ok graph) (hacyclic : graph.Acyclic)
    (hready : ((ofGraph graph).prepare .empty).outcome = .ready)
    (hprogram : ((ofGraph graph).prepare .empty).model.synthesize hook false = .ok program) :
    ((ofGraph graph).prepare .empty).model.graph = graph ∧
      ∃ outline performed, ((ofGraph graph).prepare .empty).model.outline = .ok outline ∧
        program = outline.program hook ∧
        ((ofGraph graph).prepare .empty).model.StartsOnce outline performed := by
  obtain ⟨hgraph, h, _⟩ := analysed_of_prepare hbuild hready
  refine ⟨hgraph, ?_⟩
  obtain ⟨outline, houtline, hresult⟩ := exists_outline_of_synthesize hprogram
  obtain ⟨performed, hstarts⟩ := h.startsOnce (hgraph.symm ▸ hacyclic) houtline
  exact ⟨outline, performed, houtline, hresult, hstarts⟩

/-- A partial type with a service in it, and a marked definition with an application. -/
def nestedAndGeneric : List Declaration :=
  [(Declaration.ofPath .classType "N" "O").asPartial,
   { (Declaration.ofPath .interface "N" "O.I").marked with
      interfaces := [⟨baseInterfaceName, [], ""⟩] },
   { ((Declaration.ofPath .interface "N" "G").markedWithMaxLinks 3).openGeneric ["T"] with
      interfaces := [⟨baseInterfaceName, [], ""⟩] },
   { Declaration.ofPath .interface "N" "G" with
      fullName := "N.G<int>"
      generics := .closedOver "N.G<T>" [⟨"int", [], ""⟩]
      interfaces := [⟨baseInterfaceName, [], ""⟩] }]

/-- The graph of `nestedAndGeneric`. -/
def nestedAndGenericGraph : TypeGraph :=
  ⟨[⟨nestedAndGeneric[0], none, 0⟩, ⟨nestedAndGeneric[1], some 0, 1⟩,
    ⟨nestedAndGeneric[2], none, 2⟩, ⟨nestedAndGeneric[3], none, 2⟩]⟩

/-- Of these declarations a program registers the nested service and the application, once each. -/
theorem startup_nestedAndGeneric :
    TypeGraph.build nestedAndGeneric = .ok nestedAndGenericGraph ∧ nestedAndGenericGraph.Acyclic ∧
      ∃ outline performed,
        ((ofGraph nestedAndGenericGraph).prepare .empty).model.outline = .ok outline ∧
        ((ofGraph nestedAndGenericGraph).prepare .empty).model.StartsOnce outline performed ∧
        ∃ nested application, performed.filter (·.interface = "N.O.I") = [nested] ∧
          performed.filter (·.interface = "N.G<int>") = [application] := by
  have hbuild : TypeGraph.build nestedAndGeneric = .ok nestedAndGenericGraph := by rfl
  have hacyclic : nestedAndGenericGraph.Acyclic := TypeGraph.acyclic_of_lt (by decide)
  have hready : ((ofGraph nestedAndGenericGraph).prepare .empty).outcome = .ready :=
    outcome_prepare_of_all (by decide)
  obtain ⟨hgraph, h, _⟩ := analysed_of_prepare hbuild hready
  obtain ⟨program, hprogram⟩ := exists_program_of_forall_ids hbuild hready default (by decide)
  obtain ⟨_, outline, performed, houtline, _, hstarts⟩ :=
    startup_registers_once hbuild hacyclic hready hprogram
  refine ⟨hbuild, hacyclic, outline, performed, houtline, hstarts, ?_⟩
  generalize ((ofGraph nestedAndGenericGraph).prepare .empty).model = model at *
  have hnested := hstarts.complete 1 (by rw [h.isService_eq, hgraph]; rfl)
    (by rw [genericsOf, hgraph]; rfl)
  have happlication := hstarts.complete 3 (by rw [h.isService_eq, hgraph]; rfl)
    (by rw [genericsOf, hgraph]; rfl)
  simp only [genericsOf, hgraph] at hnested happlication
  obtain ⟨_, hnested⟩ := hnested (by
    intro outer houter
    have hancestors :
        nestedAndGenericGraph.ancestors (nestedAndGenericGraph.definitionOf 1) = [0] := by
      rfl
    rw [hancestors] at houter
    cases List.mem_singleton.mp houter
    exact ⟨⟨_, rfl, rfl⟩, rfl⟩)
  obtain ⟨_, happlication⟩ := happlication (by
    intro outer houter
    cases houter)
  exact ⟨_, _, hnested, happlication⟩

end ServiceModel

end RadioBroker
