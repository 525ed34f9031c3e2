import RadioBroker.Proofs.Program.Placement

/-!
# The routines of a walk

Which types have got routines behind a walk, and what these routines call. A walk is tidy if no type
at or below its level had a routine before; the walk through the roots is, and so are all walks that
it is made of.
-/

namespace RadioBroker

open Relation

namespace Piece

/-- The types that have routines in pieces. -/
def owners (pieces : List Piece) : List TypeId := (routinesIn pieces).map Prod.fst

/-- The routines of pieces are those of the first and those behind them. -/
theorem routinesIn_append (pieces more : List Piece) :
    routinesIn (pieces ++ more) = routinesIn pieces ++ routinesIn more := by
  simp

/-- The routines of a scope are its own and those of what it holds. -/
theorem routinesIn_scopeUnlessEmpty (owner : TypeId) (declaration : Declaration)
    (pieces : List Piece) (initializer : Option Routine) :
    routinesIn (scopeUnlessEmpty owner declaration pieces initializer) =
      (initializer.map fun routine => (owner, routine)).toList ++ routinesIn pieces := by
  unfold scopeUnlessEmpty
  split
  · rename_i hempty
    simp only [Bool.and_eq_true, List.isEmpty_iff, Option.isNone_iff_eq_none] at hempty
    simp [hempty]
  · simp [routines]

end Piece

namespace ServiceModel

variable {model : ServiceModel} {before after nestedAfter level : List TypeId}
  {parent : Option TypeId} {pieces nestedPieces own : List Piece} {id other : TypeId}
  {declaration : Declaration} {initializer : Option Routine}

/-- A broker has no routine. -/
theorem routinesIn_ownPieces (h : model.ownPieces id declaration = .ok own) :
    Piece.routinesIn own = [] := by
  unfold ownPieces at h
  split at h
  · obtain ⟨broker, _, hown⟩ := bind_eq_ok_iff.mp h
    cases hown
    rfl
  · cases h
    rfl

/-- The routines where a type has only been looked at are those of what follows. -/
theorem routinesIn_stayed (hown : model.ownPieces id declaration = .ok own) :
    Piece.routinesIn (own ++ pieces) = Piece.routinesIn pieces := by
  rw [Piece.routinesIn_append, routinesIn_ownPieces hown, List.nil_append]

/-- The routines where a type has been entered are its own, those of what it holds and those of what
follows. -/
theorem routinesIn_entered (hown : model.ownPieces id declaration = .ok own) :
    Piece.routinesIn (own ++ Piece.scopeUnlessEmpty id declaration nestedPieces initializer ++
      pieces) =
      (initializer.map fun routine => (id, routine)).toList ++ Piece.routinesIn nestedPieces ++
        Piece.routinesIn pieces := by
  rw [Piece.routinesIn_append, Piece.routinesIn_append, routinesIn_ownPieces hown,
    Piece.routinesIn_scopeUnlessEmpty, List.nil_append]

theorem owners_stayed (hown : model.ownPieces id declaration = .ok own) :
    Piece.owners (own ++ pieces) = Piece.owners pieces := by
  rw [Piece.owners, routinesIn_stayed hown, Piece.owners]

theorem owners_entered (hown : model.ownPieces id declaration = .ok own) :
    Piece.owners (own ++ Piece.scopeUnlessEmpty id declaration nestedPieces initializer ++ pieces) =
      (if initializer.isSome then [id] else []) ++ Piece.owners nestedPieces ++
        Piece.owners pieces := by
  rw [Piece.owners, routinesIn_entered hown]
  cases initializer <;> simp [Piece.owners]

/-- The types with routines behind a walk are those that had them and those that got them. -/
theorem Walk.mem_after_iff (hwalk : Walk model before level pieces after) :
    other ∈ after ↔ other ∈ before ∨ other ∈ Piece.owners pieces := by
  induction hwalk with
  | nil => simp [Piece.owners]
  | stay _ hown _ _ ih => rw [ih, owners_stayed hown]
  | @enter before nestedAfter after level id _ _ _ _ initializer _ hown _ _ _ _ hnested hrest =>
      -- The entered type itself comes in between, if it has got a routine.
      have hbetween : other ∈ (if initializer.isSome then id :: nestedAfter else nestedAfter) ↔
          other ∈ nestedAfter ∨ other ∈ (if initializer.isSome then [id] else []) := by
        split <;> simp [or_comm]
      rw [hrest, hbetween, hnested, owners_entered hown]
      simp only [List.mem_append, or_assoc]
      exact or_congr_right or_left_comm

/-- A type with a routine is the owner of a piece. -/
theorem exists_placed_of_mem_owners (hother : other ∈ Piece.owners pieces) :
    ∃ placement ∈ Piece.placedIn [] pieces, placement.piece.owner = other := by
  obtain ⟨entry, hentry, rfl⟩ := List.mem_map.mp hother
  rw [← Piece.filterMap_routine?_placedIn [], List.mem_filterMap] at hentry
  obtain ⟨placement, hmem, hroutine⟩ := hentry
  obtain ⟨_, _, hscope⟩ := Piece.eq_scope_of_routine? hroutine
  exact ⟨placement, hmem, by rw [hscope, Piece.owner]⟩

/-- A type with a routine stands at the level of the walk or below it. -/
theorem Walk.exists_top_of_mem_owners (h : model.Analysed)
    (hwalk : Walk model before level pieces after) (hother : other ∈ Piece.owners pieces) :
    ∃ top ∈ level, ReflTransGen model.graph.Encloses top other := by
  obtain ⟨placement, hmem, rfl⟩ := exists_placed_of_mem_owners hother
  exact hwalk.exists_top_of_mem_placedIn h hmem

/-- A type with a routine behind the walk through a type is enclosed by that. -/
theorem Walk.transGen_of_mem_owners (h : model.Analysed)
    (nested : Walk model before (model.relations.childrenOf id) nestedPieces nestedAfter)
    (hother : other ∈ Piece.owners nestedPieces) : TransGen model.graph.Encloses id other := by
  obtain ⟨placement, hmem, rfl⟩ := exists_placed_of_mem_owners hother
  exact nested.transGen_of_mem_placedIn h hmem

/-- No type gets two routines. -/
theorem Walk.nodup_owners (h : model.Analysed) (hacyclic : model.graph.Acyclic)
    (hwalk : Walk model before level pieces after) (hlevel : model.Level parent level) :
    (Piece.owners pieces).Nodup := by
  rw [Piece.owners, ← Piece.filterMap_routine?_placedIn []]
  refine Piece.nodup_owners_of_nodup_keys _ true ?_ (hwalk.nodup_keys h hacyclic hlevel)
  intro piece entry hentry
  obtain ⟨_, _, rfl⟩ := Piece.eq_scope_of_routine? hentry
  rfl

/-! ## Tidy walks -/

/-- A level is about to be walked through, and no type at it or below it has a routine. -/
structure Tidy (model : ServiceModel) (parent : Option TypeId) (before level : List TypeId) : Prop
    extends Level model parent level where
  fresh : ∀ other ∈ before, ∀ top ∈ level, ¬ ReflTransGen model.graph.Encloses top other

namespace Tidy

/-- What is behind the first definition of a tidy level is tidy. -/
theorem tail (h : model.Tidy parent before (id :: level)) : model.Tidy parent before level where
  toLevel := h.toLevel.tail
  fresh other hother top htop := h.fresh other hother top (List.mem_cons_of_mem _ htop)

/-- The level below the first definition of a tidy level is tidy. -/
theorem nested (h : model.Analysed) (htidy : model.Tidy parent before (id :: level)) :
    model.Tidy (some id) before (model.relations.childrenOf id) where
  toLevel := h.level_childrenOf id
  fresh other hother child hchild hpath := by
    have hencloses := (h.relations.mem_childrenOf_iff.mp hchild).1
    exact htidy.fresh other hother id List.mem_cons_self (.head hencloses hpath)

/-- When the first definition of a tidy level has been entered, the rest is still tidy. -/
theorem rest (h : model.Analysed) (hacyclic : model.graph.Acyclic)
    (htidy : model.Tidy parent before (id :: level))
    (hnested : Walk model before (model.relations.childrenOf id) nestedPieces nestedAfter)
    (initializer : Option Routine) :
    model.Tidy parent (if initializer.isSome then id :: nestedAfter else nestedAfter) level where
  toLevel := htidy.toLevel.tail
  fresh := by
    have hnestedFresh : ∀ other ∈ nestedAfter, ∀ top ∈ level,
        ¬ ReflTransGen model.graph.Encloses top other := by
      intro other hother
      rcases hnested.mem_after_iff.mp hother with hearly | howner
      · exact htidy.tail.fresh other hearly
      · have hpath := hnested.transGen_of_mem_owners h howner
        exact htidy.toLevel.not_below_tail hacyclic hpath.to_reflTransGen
    intro other hother
    split at hother
    · rcases List.mem_cons.mp hother with rfl | hnestedOther
      · exact htidy.toLevel.not_below_tail hacyclic .refl
      · exact hnestedFresh other hnestedOther
    · exact hnestedFresh other hother

end Tidy

/-- The roots are a tidy level as long as no type has a routine. -/
theorem Analysed.tidy_rootLevel (h : model.Analysed) : model.Tidy none [] model.rootLevel where
  toLevel := h.level_rootLevel
  fresh _ hother := absurd hother List.not_mem_nil

/-! ## What routines call -/

/-- The routine of a type is that of the level below it, and calls only routines that there are. -/
theorem Walk.levelRoutine_of_mem (h : model.Analysed) (hacyclic : model.graph.Acyclic)
    (hwalk : Walk model before level pieces after) (htidy : model.Tidy parent before level)
    {routine : Routine} (hroutine : (other, routine) ∈ Piece.routinesIn pieces) :
    ∃ withRoutine, model.levelRoutine withRoutine (model.relations.childrenOf other) = .ok routine ∧
      ∀ child ∈ model.relations.childrenOf other, child ∈ withRoutine →
        child ∈ Piece.owners pieces := by
  induction hwalk generalizing parent with
  | nil => simp at hroutine
  | stay _ hown _ _ ih =>
      rw [routinesIn_stayed hown] at hroutine
      rw [owners_stayed hown]
      exact ih htidy.tail hroutine
  | @enter before nestedAfter after level id node own nestedPieces pieces initializer
      _ hown _ nested hinitializer _ hnested hrest =>
      rw [routinesIn_entered hown, List.mem_append, List.mem_append] at hroutine
      simp only [owners_entered hown, List.mem_append]
      rcases hroutine with (hself | hbelow) | hlater
      · obtain ⟨_, hinit, hpair⟩ := Option.map_eq_some_iff.mp (Option.mem_toList.mp hself)
        cases hpair
        rcases nestedRoutine_cases hinitializer with ⟨_, hnone⟩ | ⟨_, _, made, hmade, hsome⟩
        · simp [hnone] at hinit
        · refine ⟨nestedAfter, ?_, ?_⟩
          · split at hsome
            · simp [hsome] at hinit
            · rw [hsome] at hinit
              cases hinit
              exact hmade
          · intro child hchild hcalled
            -- The child had no routine before, so it has got one below this very type.
            rcases nested.mem_after_iff.mp hcalled with hearly | howner
            · exact absurd .refl ((htidy.nested h).fresh child hearly child hchild)
            · exact Or.inl (Or.inr howner)
      · obtain ⟨withRoutine, hmade, hcalls⟩ := hnested (htidy.nested h) hbelow
        exact ⟨withRoutine, hmade, fun child hchild hcalled =>
          Or.inl (Or.inr (hcalls child hchild hcalled))⟩
      · obtain ⟨withRoutine, hmade, hcalls⟩ :=
          hrest (htidy.rest h hacyclic nested initializer) hlater
        exact ⟨withRoutine, hmade, fun child hchild hcalled =>
          Or.inr (hcalls child hchild hcalled)⟩

/-- A type with a routine is a type of the graph. -/
theorem Walk.lt_of_mem_owners (h : model.Analysed) (hwalk : Walk model before level pieces after)
    (hlevel : model.Level parent level) (hother : other ∈ Piece.owners pieces) :
    other < model.graph.size := by
  obtain ⟨top, htop, hpath⟩ := hwalk.exists_top_of_mem_owners h hother
  rcases ReflTransGen.cases_tail hpath with rfl | ⟨_, _, hstep⟩
  · exact h.lt_of_instances (hlevel.instances _ htop)
  · exact hstep.inner_lt

/-- A name stands for at most one routine. -/
theorem Walk.routine_unique (h : model.Analysed) (hacyclic : model.graph.Acyclic)
    (hwalk : Walk model before level pieces after) (htidy : model.Tidy parent before level)
    {first second : TypeId × Routine} (hfirst : first ∈ Piece.routinesIn pieces)
    (hsecond : second ∈ Piece.routinesIn pieces)
    (hname : model.graph.fullName first.1 = model.graph.fullName second.1) : first = second := by
  have howner : ∀ entry ∈ Piece.routinesIn pieces, entry.1 < model.graph.size := fun entry hentry =>
    hwalk.lt_of_mem_owners h htidy.toLevel (List.mem_map_of_mem hentry)
  have heq := h.graph.fullName_inj (howner first hfirst) (howner second hsecond) hname
  exact List.inj_on_of_nodup_map (hwalk.nodup_owners h hacyclic htidy.toLevel) hfirst hsecond heq

/-- What a routine calls are definitions with routines in the type that it belongs to. -/
theorem Walk.exists_of_mem_childCalls (h : model.Analysed) (hacyclic : model.graph.Acyclic)
    (hwalk : Walk model before level pieces after) (htidy : model.Tidy parent before level)
    {entry : TypeId × Routine} (hentry : entry ∈ Piece.routinesIn pieces) {name : String}
    (hname : name ∈ entry.2.childCalls) :
    ∃ child, model.graph.Encloses entry.1 child ∧ child ∈ Piece.owners pieces ∧
      model.graph.fullName child = name := by
  obtain ⟨withRoutine, hmade, hcalls⟩ := hwalk.levelRoutine_of_mem h hacyclic htidy hentry
  obtain ⟨child, hchild, hcalled, rfl⟩ :=
    (h.childCalls_of_levelRoutine (h.level_childrenOf entry.1) hmade).2 name hname
  exact ⟨child, (h.relations.mem_childrenOf_iff.mp hchild).1, hcalls child hchild hcalled, rfl⟩

/-- No type is called twice by the routines of a walk. -/
theorem Walk.nodup_childCalls (h : model.Analysed) (hacyclic : model.graph.Acyclic)
    (hwalk : Walk model before level pieces after) (htidy : model.Tidy parent before level) :
    ((Piece.routinesIn pieces).flatMap fun entry => entry.2.childCalls).Nodup := by
  have howners := hwalk.nodup_owners h hacyclic htidy.toLevel
  refine List.nodup_flatMap.mpr ⟨?_, ?_⟩
  · intro entry hentry
    obtain ⟨withRoutine, hmade, _⟩ := hwalk.levelRoutine_of_mem h hacyclic htidy hentry
    exact (h.childCalls_of_levelRoutine (h.level_childrenOf entry.1) hmade).1
  · refine (List.pairwise_map.mp howners).imp_of_mem ?_
    intro first second hfirst hsecond hne name hname hother
    obtain ⟨child, hchild, _, rfl⟩ := hwalk.exists_of_mem_childCalls h hacyclic htidy hfirst hname
    obtain ⟨twin, htwin, _, heq⟩ := hwalk.exists_of_mem_childCalls h hacyclic htidy hsecond hother
    -- Both callers enclose the type of that name.
    have hsame := h.graph.fullName_inj htwin.inner_lt hchild.inner_lt heq
    subst hsame
    exact hne (Option.some.inj (hchild.symm.trans htwin))

end ServiceModel

end RadioBroker
