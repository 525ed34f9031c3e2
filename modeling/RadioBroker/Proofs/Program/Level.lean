import RadioBroker.Proofs.ServiceModel.Namespaces
import RadioBroker.Proofs.ServiceModel.Preparation
import RadioBroker.Program.Synthesis

/-!
# Levels and their routines

Generation goes through definitions level by level: the roots first, then the definitions below
each type. What is known of levels, which services a level registers, and when its routine can be
made.
-/

namespace RadioBroker

namespace ServiceModel

variable {model : ServiceModel} {parent : Option TypeId} {level : List TypeId} {id : TypeId}

/-- Definitions with instances that stand side by side in the same type, or in none. -/
structure Level (model : ServiceModel) (parent : Option TypeId) (level : List TypeId) : Prop where
  nodup : level.Nodup
  parent : ∀ id ∈ level, model.graph.parent? id = parent
  instances : ∀ id ∈ level, model.relations.instancesOf id ≠ []

/-- What is behind the first definition of a level is a level. -/
theorem Level.tail (h : model.Level parent (id :: level)) : model.Level parent level where
  nodup := (List.nodup_cons.mp h.nodup).2
  parent other hother := h.parent other (List.mem_cons_of_mem _ hother)
  instances other hother := h.instances other (List.mem_cons_of_mem _ hother)

namespace Analysed

/-- The definitions below a type are a level. -/
theorem level_childrenOf (h : model.Analysed) (id : TypeId) :
    model.Level (some id) (model.relations.childrenOf id) where
  nodup := Relations.nodup_related h.relations.distinct.children
  parent _ hchild := (h.relations.mem_childrenOf_iff.mp hchild).1
  instances _ hchild := (h.relations.mem_childrenOf_iff.mp hchild).2

/-- The root level holds the roots. -/
theorem mem_rootLevel_iff (h : model.Analysed) :
    id ∈ model.rootLevel ↔
      model.graph.parent? id = none ∧ model.relations.instancesOf id ≠ [] := by
  rw [← h.relations.mem_roots_iff]
  simp only [rootLevel, namespaces, List.flatMap_map, List.mem_flatMap, List.mem_eraseDups,
    List.mem_map, List.mem_filter, decide_eq_true_eq]
  constructor
  · intro hlink
    obtain ⟨_, _, hroot, _⟩ := hlink
    exact hroot
  · intro hroot
    exact ⟨_, ⟨id, hroot, rfl⟩, hroot, rfl⟩

/-- The roots are a level. -/
theorem level_rootLevel (h : model.Analysed) : model.Level none model.rootLevel where
  nodup := by
    rw [rootLevel, namespaces, List.flatMap_map]
    refine List.nodup_flatMap.mpr ⟨?_, ?_⟩
    · intro name _
      exact h.relations.distinct.roots.filter _
    · refine (nodup_eraseDups _).imp ?_
      intro first second hne root hfirst hsecond
      simp only [List.mem_filter, decide_eq_true_eq] at hfirst hsecond
      exact hne (hfirst.2.symm.trans hsecond.2)
  parent _ hroot := (h.mem_rootLevel_iff.mp hroot).1
  instances _ hroot := (h.mem_rootLevel_iff.mp hroot).2

end Analysed

/-! ## What a level registers -/

/-- A level registers the services that apply one of its definitions, or are one, unless they are
generic definitions themselves. -/
theorem Analysed.mem_registeredAt_iff (h : model.Analysed) :
    id ∈ model.registeredAt level ↔
      model.graph.definitionOf id ∈ level ∧ model.isService id = true ∧
        (model.genericsOf id).isOpen = false := by
  simp only [registeredAt, List.mem_filter, List.mem_flatMap, h.relations.mem_instancesOf_iff,
    Bool.and_eq_true, Bool.not_eq_true', and_congr_left_iff, and_imp]
  intro hservice _
  constructor
  · intro hentry
    obtain ⟨_, hmem, _, rfl⟩ := hentry
    exact hmem
  · intro hmem
    exact ⟨_, hmem, h.linked id hservice, rfl⟩

/-- A level registers no service twice. -/
theorem Analysed.nodup_registeredAt (h : model.Analysed) (hlevel : level.Nodup) :
    (model.registeredAt level).Nodup := by
  refine List.Nodup.filter _ (List.nodup_flatMap.mpr ⟨?_, ?_⟩)
  · intro definition _
    exact Relations.nodup_related h.relations.distinct.instances
  · refine hlevel.imp ?_
    intro first second hne other hfirst hsecond
    rw [h.relations.mem_instancesOf_iff] at hfirst hsecond
    exact hne (hfirst.2.symm.trans hsecond.2)

/-- The registration of a type whose definition has a broker. -/
def registrationOf (model : ServiceModel) (id : TypeId) : Registration where
  interface := model.graph.fullName id
  broker := (model.brokerPath (model.graph.definitionOf id)).toOption.getD "" ++
    model.brokerArguments id
  maxLinks := model.maxLinks id

/-- Brokers are named for services only. -/
theorem Analysed.brokerPath_cases (h : model.Analysed) (definition : TypeId) :
    model.isService definition = true ∧ (∃ path, model.brokerPath definition = .ok path) ∨
      model.isService definition = false ∧
        model.brokerPath definition = .error (.unchecked (model.graph.fullName definition)) := by
  cases hservice : model.isService definition with
  | true =>
      have hname : model.className definition ≠ "" := by simp [h.className_eq_empty_iff, hservice]
      exact Or.inl ⟨rfl, _, if_neg hname⟩
  | false =>
      have hname : model.className definition = "" := h.className_eq_empty_iff.mpr hservice
      exact Or.inr ⟨rfl, if_pos hname⟩

/-- A type is registered if its definition is a service. -/
theorem Analysed.registration_cases (h : model.Analysed) (id : TypeId) :
    model.isService (model.graph.definitionOf id) = true ∧
        model.registration id = .ok (model.registrationOf id) ∨
      model.isService (model.graph.definitionOf id) = false ∧
        model.registration id =
          .error (.unchecked (model.graph.fullName (model.graph.definitionOf id))) := by
  rcases h.brokerPath_cases (model.graph.definitionOf id) with
    ⟨hservice, path, hpath⟩ | ⟨hnone, herror⟩
  · refine Or.inl ⟨hservice, ?_⟩
    simp [registration, registrationOf, hpath, bind, Except.bind, Except.toOption]
  · refine Or.inr ⟨hnone, ?_⟩
    simp [registration, herror, bind, Except.bind]

/-! ## The routine of a level -/

/-- The routine of a level is made if the definitions of all that it registers are services. -/
theorem Analysed.levelRoutine_eq_ok_iff (h : model.Analysed) {withRoutine : List TypeId}
    {routine : Routine} :
    model.levelRoutine withRoutine level = .ok routine ↔
      (∀ id ∈ model.registeredAt level,
        model.isService (model.graph.definitionOf id) = true) ∧
      routine = ⟨(model.registeredAt level).map model.registrationOf,
        (level.filter (· ∈ withRoutine)).map model.graph.fullName⟩ := by
  have hmade : (∀ id ∈ model.registeredAt level,
        model.isService (model.graph.definitionOf id) = true) →
      (model.registeredAt level).mapM model.registration =
        .ok ((model.registeredAt level).map model.registrationOf) := by
    intro hservices
    refine mapM_eq_ok_map fun id hid => ?_
    rcases h.registration_cases id with ⟨_, hok⟩ | ⟨hnone, _⟩
    · exact hok
    · exact absurd (hservices id hid) (by simp [hnone])
  rw [levelRoutine, bind_eq_ok_iff]
  constructor
  · intro hroutines
    obtain ⟨registrations, hregistrations, hroutine⟩ := hroutines
    have hservices : ∀ id ∈ model.registeredAt level,
        model.isService (model.graph.definitionOf id) = true := by
      intro id hid
      obtain ⟨registration, hregistration⟩ := exists_ok_of_mapM hregistrations hid
      rcases h.registration_cases id with ⟨hservice, _⟩ | ⟨_, herror⟩
      · exact hservice
      · rw [herror] at hregistration
        cases hregistration
    rw [hmade hservices] at hregistrations
    cases hregistrations
    cases hroutine
    exact ⟨hservices, rfl⟩
  · intro hanswer
    obtain ⟨hservices, rfl⟩ := hanswer
    exact ⟨_, hmade hservices, rfl⟩

/-- What keeps a level from a routine is a service whose definition is none. -/
theorem Analysed.exists_of_levelRoutine_eq_error (h : model.Analysed)
    {withRoutine : List TypeId} {error : SynthesisError}
    (herror : model.levelRoutine withRoutine level = .error error) :
    ∃ id ∈ model.registeredAt level, model.isService (model.graph.definitionOf id) = false ∧
      error = .unchecked (model.graph.fullName (model.graph.definitionOf id)) := by
  rw [levelRoutine, bind_eq_error_iff] at herror
  -- Only registrations fail; the calls by name always succeed.
  rcases herror with hregistrations | ⟨_, _, hnever⟩
  · obtain ⟨id, hid, hregistration⟩ := exists_error_of_mapM hregistrations
    refine ⟨id, hid, ?_⟩
    rcases h.registration_cases id with ⟨_, hok⟩ | ⟨hnone, hfailed⟩
    · rw [hok] at hregistration
      cases hregistration
    · rw [hfailed] at hregistration
      cases hregistration
      exact ⟨hnone, rfl⟩
  · cases hnever

/-- A routine calls definitions of its level by name, each of them at most once. -/
theorem Analysed.childCalls_of_levelRoutine (h : model.Analysed) {withRoutine : List TypeId}
    {routine : Routine} (hlevel : model.Level parent level)
    (hroutine : model.levelRoutine withRoutine level = .ok routine) :
    routine.childCalls.Nodup ∧
      ∀ name ∈ routine.childCalls,
        ∃ id ∈ level, id ∈ withRoutine ∧ model.graph.fullName id = name := by
  obtain ⟨_, rfl⟩ := h.levelRoutine_eq_ok_iff.mp hroutine
  refine ⟨List.Nodup.map_on ?_ (hlevel.nodup.filter _), ?_⟩
  · intro first hfirst second hsecond heq
    have hlt : ∀ id ∈ level.filter (· ∈ withRoutine), id < model.graph.size := fun id hid =>
      h.lt_of_instances (hlevel.instances id (List.mem_filter.mp hid).1)
    exact h.graph.fullName_inj (hlt first hfirst) (hlt second hsecond) heq
  · intro name hname
    obtain ⟨id, hid, rfl⟩ := List.mem_map.mp hname
    obtain ⟨hmem, hcalled⟩ := List.mem_filter.mp hid
    exact ⟨id, hmem, by simpa using hcalled, rfl⟩

/-- How the routine of the level below a type comes about. -/
theorem nestedRoutine_cases {withRoutine : List TypeId} {initializer : Option Routine}
    (h : model.nestedRoutine withRoutine id level = .ok initializer) :
    ((model.genericsOf id).isOpen = true ∨ level = []) ∧ initializer = none ∨
      (model.genericsOf id).isOpen = false ∧ level ≠ [] ∧
        ∃ routine, model.levelRoutine withRoutine level = .ok routine ∧
          initializer = if routine.isEmpty then none else some routine := by
  unfold nestedRoutine at h
  split at h
  · rename_i hidle
    cases h
    rw [Bool.or_eq_true, List.isEmpty_iff] at hidle
    exact Or.inl ⟨hidle, rfl⟩
  · rename_i hbusy
    rw [Bool.not_eq_true, Bool.or_eq_false_iff, List.isEmpty_eq_false_iff] at hbusy
    obtain ⟨routine, hroutine, hresult⟩ := bind_eq_ok_iff.mp h
    cases hresult
    exact Or.inr ⟨hbusy.1, hbusy.2, routine, hroutine, rfl⟩

end ServiceModel

end RadioBroker
