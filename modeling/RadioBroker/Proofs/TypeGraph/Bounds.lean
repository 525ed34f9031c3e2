import Mathlib.Algebra.Ring.Nat
import Mathlib.Data.Fintype.BigOperators
import RadioBroker.Proofs.TypeExpr.Words
import RadioBroker.Proofs.TypeExpr.Renaming
import RadioBroker.Proofs.TypeGraph.Completion

/-!
# Searches that end

A definition that extends another one over ever larger arguments has the search for mentioned types
go on for ever. Where definitions hand on their arguments as they are, next to arguments without
parameters, all arguments that are met stem from a finite set. Each closed type that is added is
then a given definition applied to arguments of this set, so there are no more of them than there
are such applications, and the search ends.
-/

namespace RadioBroker.TypeGraph

open TypeExpr (Free substitute named argumentFor)

variable {given known more : List Declaration} {declaration definition mentioning : Declaration}
  {parameters : List String} {arguments : List TypeExpr} {t argument : TypeExpr} {limit : Nat}

/-! ## Entries that let arguments be -/

/-- An entry in the extension list of a definition mentions no parameter, or it applies another
definition to parameters and to arguments that mention none. -/
def Steady (parameters : List String) (t : TypeExpr) : Prop :=
  t.Free parameters ∨ t.suffix = "" ∧ t.head ∉ parameters ∧ ∀ argument ∈ t.arguments,
    (∃ parameter ∈ parameters, argument = named parameter) ∨ argument.Free parameters

instance (parameters : List String) (t : TypeExpr) : Decidable (Steady parameters t) :=
  inferInstanceAs (Decidable (_ ∨ _))

/-- All entries of the extension lists of definitions are steady. -/
def AllSteady (given : List Declaration) : Prop :=
  ∀ definition ∈ given, definition.isOpen = true →
    ∀ t ∈ definition.interfaces, Steady definition.generics.parameters t

instance (given : List Declaration) : Decidable (AllSteady given) :=
  inferInstanceAs (Decidable (∀ definition ∈ given, definition.isOpen = true →
    ∀ t ∈ definition.interfaces, Steady definition.generics.parameters t))

/-- The arguments without parameters in extension lists. A type that is no definition has no
parameters, so all arguments in its extension list count. -/
def seeds (given : List Declaration) : Finset TypeExpr :=
  (given.flatMap fun declaration => declaration.interfaces.flatMap fun t =>
    t.arguments.filter fun argument => argument.Free declaration.generics.parameters).toFinset

/-- The number of ways to apply a given definition to seeds. -/
def room (given : List Declaration) : Nat :=
  ((given.filter Declaration.isOpen).map fun definition =>
    (seeds given).card ^ definition.generics.parameters.length).sum

/-- An argument without parameters in the extension list of a given declaration is a seed. -/
theorem mem_seeds (hdeclaration : declaration ∈ given) (ht : t ∈ declaration.interfaces)
    (hargument : argument ∈ t.arguments) (hfree : argument.Free declaration.generics.parameters) :
    argument ∈ seeds given := by
  rw [seeds, List.mem_toFinset, List.mem_flatMap]
  refine ⟨declaration, hdeclaration, List.mem_flatMap.mpr ⟨t, ht, ?_⟩⟩
  exact List.mem_filter.mpr ⟨hargument, decide_eq_true hfree⟩

/-- What stands for a parameter is one of the arguments. -/
theorem substitute_named_mem {parameter : String} (hparameter : parameter ∈ parameters)
    (hlength : parameters.length = arguments.length) :
    (named parameter).substitute parameters arguments ∈ arguments := by
  obtain ⟨argument, hargument⟩ := TypeExpr.exists_argumentFor hparameter hlength
  have hsame : (named parameter).substitute parameters arguments = argument := by
    simp [named, substitute, hargument]
  exact hsame ▸ TypeExpr.mem_of_argumentFor hargument

/-- The arguments of a steady entry, once something stands for the parameters, are what stands for
them or mentioned none of them. -/
theorem Steady.cases_of_mem (h : Steady parameters t)
    (hlength : parameters.length = arguments.length)
    (hargument : argument ∈ (t.substitute parameters arguments).arguments) :
    argument ∈ arguments ∨ argument ∈ t.arguments ∧ argument.Free parameters := by
  rcases h with hfree | ⟨_, hhead, harguments⟩
  · rw [hfree.substitute_eq] at hargument
    exact Or.inr ⟨hargument, hfree.of_mem hargument⟩
  · rw [TypeExpr.arguments_substitute hhead] at hargument
    obtain ⟨original, horiginal, rfl⟩ := List.mem_map.mp hargument
    rcases harguments original horiginal with ⟨parameter, hparameter, rfl⟩ | hfree
    · exact Or.inl (substitute_named_mem hparameter hlength)
    · rw [hfree.substitute_eq]
      exact Or.inr ⟨horiginal, hfree⟩

/-! ## What a search can meet -/

/-- A given definition, applied to seeds. -/
def IsInstance (given : List Declaration) (declaration : Declaration) : Prop :=
  ∃ definition ∈ given, definition.isOpen = true ∧
    ∃ arguments, (∀ argument ∈ arguments, argument ∈ seeds given) ∧
      definition.close arguments = .ok declaration

/-- All arguments that a type mentions which is given, or is an instance, are seeds. -/
theorem mem_seeds_of_mentionedBy (hsteady : AllSteady given)
    (hmentioning : mentioning ∈ given ∨ IsInstance given mentioning)
    (ht : t ∈ mentionedBy mentioning) (hargument : argument ∈ t.arguments) :
    argument ∈ seeds given := by
  obtain ⟨hopen, hentry, _⟩ := mem_mentionedBy_iff.mp ht
  rcases hmentioning with hgiven | ⟨definition, hdefinition, hover, arguments, harguments, hclose⟩
  · have hnone : mentioning.generics.parameters = [] := by
      unfold Declaration.isOpen at hopen
      cases hgenerics : mentioning.generics with
      | openOver parameters => simp [hgenerics, Generics.isOpen] at hopen
      | notGeneric => rfl
      | closedOver _ _ => rfl
    refine mem_seeds hgiven hentry hargument ?_
    rw [hnone]
    exact List.forall_mem_nil _
  · obtain ⟨parameters, hgenerics, hlength, rfl⟩ := Declaration.close_eq_ok_iff.mp hclose
    obtain ⟨entry, hinterface, rfl⟩ := List.mem_map.mp hentry
    have hentrySteady := hsteady definition hdefinition hover entry hinterface
    rw [hgenerics] at hentrySteady
    rcases hentrySteady.cases_of_mem hlength hargument with hgivenArgument | ⟨hinner, hfree⟩
    · exact harguments argument hgivenArgument
    · refine mem_seeds hdefinition hinterface hinner ?_
      rw [hgenerics]
      exact hfree

/-- What a search adds are instances. -/
theorem Grown.isInstance (hsteady : AllSteady given) (h : Grown given declaration) :
    declaration ∈ given ∨ IsInstance given declaration := by
  induction h with
  | given hmem => exact Or.inl hmem
  | @closed mentioning closed t _ hmention happlies ih =>
      obtain ⟨definition, hdefinition, _, hover, hclose⟩ := happlies.applied
      refine Or.inr ⟨definition, hdefinition, ?_, t.arguments, ?_, hclose⟩
      · exact (Bool.and_eq_true_iff.mp hover).1
      · exact fun argument hargument => mem_seeds_of_mentionedBy hsteady ih hmention hargument

/-! ## How many instances there are -/

/-- The applications of a definition to seeds. -/
noncomputable def instancesOf (given : List Declaration) (definition : Declaration) :
    List Declaration :=
  (Fintype.piFinset fun _ : Fin definition.generics.parameters.length => seeds given).toList.map
    fun arguments => definition.closeOver definition.generics.parameters (List.ofFn arguments)

/-- There are as many applications as there are ways to choose a seed for each parameter. -/
theorem length_instancesOf (given : List Declaration) (definition : Declaration) :
    (instancesOf given definition).length =
      (seeds given).card ^ definition.generics.parameters.length := by
  rw [instancesOf, List.length_map, Finset.length_toList, Fintype.card_piFinset_const]

/-- Each instance is an application of its definition. -/
theorem IsInstance.mem (h : IsInstance given declaration) :
    declaration ∈ (given.filter Declaration.isOpen).flatMap (instancesOf given) := by
  obtain ⟨definition, hdefinition, hopen, arguments, harguments, hclose⟩ := h
  obtain ⟨parameters, hgenerics, hlength, rfl⟩ := Declaration.close_eq_ok_iff.mp hclose
  refine List.mem_flatMap.mpr ⟨definition, List.mem_filter.mpr ⟨hdefinition, hopen⟩, ?_⟩
  have hparameters : definition.generics.parameters = parameters := by rw [hgenerics]; rfl
  rw [instancesOf, hparameters]
  refine List.mem_map.mpr ⟨fun place => arguments.get (place.cast hlength), ?_, ?_⟩
  · rw [Finset.mem_toList, Fintype.mem_piFinset]
    exact fun place => harguments _ (List.get_mem _ _)
  · congr 1
    refine List.ext_getElem (by rw [List.length_ofFn, hlength]) ?_
    intro place _ _
    simp

/-- Different declarations of which each is given or an instance are no more than there is room
for. -/
theorem length_le_of_nodup (hnodup : known.Nodup)
    (hknown : ∀ declaration ∈ known, declaration ∈ given ∨ IsInstance given declaration) :
    known.length ≤ given.length + room given := by
  have hsubset :
      known ⊆ given ++ (given.filter Declaration.isOpen).flatMap (instancesOf given) := by
    intro declaration hmem
    rcases hknown declaration hmem with hgiven | hinstance
    · exact List.mem_append_left _ hgiven
    · exact List.mem_append_right _ hinstance.mem
  have hlength := (List.subperm_of_subset hnodup hsubset).length_le
  rw [List.length_append, List.length_flatMap] at hlength
  simpa only [room, length_instancesOf] using hlength

/-! ## When a search ends -/

/-- Adding what is mentioned does not fail for want of room. -/
theorem addMentioned_ne_tooManyTypes {declared : List Declaration} {count : Nat} :
    addMentioned declared known t ≠ .error (.tooManyTypes count) := by
  intro h
  unfold addMentioned at h
  split at h
  · cases h
  · rcases bind_eq_error_iff.mp h with hdefinition | ⟨definition?, _, h⟩
    · obtain ⟨_, _, herror⟩ := exists_of_definitionFor_error hdefinition
      cases herror
    · cases definition? with
      | none => cases h
      | some definition =>
          rcases bind_eq_error_iff.mp h with hclose | ⟨closed, _, hadd⟩
          · cases hresult : definition.close t.arguments with
            | ok closed => simp [hresult, Except.mapError] at hclose
            | error cause => simp [hresult, Except.mapError] at hclose
          · cases (addDeclaration_eq_error_iff.mp hadd).2

/-- A search that is stopped has searched as many declarations as it may, and there are more. -/
theorem exists_of_tooManyTypes {declared : List Declaration}
    (reached : List Declaration → Nat → Prop)
    (hstep : ∀ known next mentioning more, reached known next → known[next]? = some mentioning →
      (mentionedBy mentioning).foldlM (addMentioned declared) known = .ok more →
      reached more (next + 1))
    {next count : Nat} (hstart : reached known next)
    (h : addAllMentioned declared limit known next = .error (.tooManyTypes count)) :
    ∃ final, reached final (next + limit) ∧ next + limit < final.length := by
  induction limit generalizing known next with
  | zero =>
      unfold addAllMentioned at h
      split at h
      · cases h
      · rename_i hnext
        exact ⟨known, hstart, (List.getElem?_eq_some_iff.mp hnext).1⟩
  | succ limit ih =>
      unfold addAllMentioned at h
      split at h
      · cases h
      · rename_i mentioning hnext
        rcases bind_eq_error_iff.mp h with hfold | ⟨more, hmore, hrest⟩
        · obtain ⟨t, _, reached, hadd⟩ := exists_error_of_foldlM hfold
          exact absurd hadd addMentioned_ne_tooManyTypes
        · obtain ⟨final, hfinal, hlt⟩ :=
            ih (hstep known next mentioning more hstart hnext hmore) hrest
          refine ⟨final, ?_, ?_⟩
          · rwa [Nat.add_assoc, Nat.add_comm 1] at hfinal
          · omega

/-- A search that is not stopped does not change if it may search more. -/
theorem addAllMentioned_of_le {declared : List Declaration} {next more : Nat} (hle : limit ≤ more)
    (h : ∀ count, addAllMentioned declared limit known next ≠ .error (.tooManyTypes count)) :
    addAllMentioned declared more known next = addAllMentioned declared limit known next := by
  induction limit generalizing known next more with
  | zero =>
      unfold addAllMentioned at h ⊢
      split
      · rfl
      · rename_i hnext
        simp [hnext] at h
  | succ limit ih =>
      obtain ⟨more, rfl⟩ : ∃ fewer, more = fewer + 1 := ⟨more - 1, by omega⟩
      unfold addAllMentioned at h ⊢
      split
      · rfl
      · rename_i mentioning hnext
        simp only [hnext] at h ⊢
        cases hmore : (mentionedBy mentioning).foldlM (addMentioned declared) known with
        | error error => rfl
        | ok found =>
            simp only [hmore] at h
            exact ih (by omega) h

/-- A search that may search as many declarations as there is room for is not stopped. -/
theorem addAllMentioned_ne_tooManyTypes (hsteady : AllSteady given)
    (hdistinct : NamesDistinct given)
    (hlimit : given.length + room given ≤ limit) (count : Nat) :
    addAllMentioned given limit given 0 ≠ .error (.tooManyTypes count) := by
  intro h
  obtain ⟨final, ⟨hsearched, hnames⟩, hlt⟩ := exists_of_tooManyTypes
    (fun known next => Searched given known next ∧ NamesDistinct known)
    (fun _ _ _ _ hreached hnext hmore => ⟨hreached.1.step hnext hmore, foldlM_invariant
      (fun _ _ _ hstate hadd => namesDistinct_addMentioned hstate hadd) hreached.2 hmore⟩)
    ⟨Searched.start given, hdistinct⟩ h
  have hlength := length_le_of_nodup (hnames.of_map _) fun declaration hmem =>
    (hsearched.grown declaration hmem).isInstance hsteady
  omega

/-! ## Builds -/

/-- A build is a search in the given declarations, whose names are distinct, or it fails whatever
the limit is. -/
theorem buildWithin_cases (given : List Declaration) :
    (NamesDistinct given ∧ ∀ limit, buildWithin limit given =
      addAllMentioned given limit given 0 >>= fun known =>
        known.zipIdx.mapM (resolve known) >>= fun nodes => .ok ⟨nodes⟩) ∨
      ∃ name, ∀ limit, buildWithin limit given = .error (.duplicateType name) := by
  cases hfold : given.foldlM addDeclaration [] with
  | ok declared =>
      have hnil : NamesDistinct [] := List.nodup_nil
      have hdistinct : NamesDistinct declared := foldlM_invariant
        (fun _ _ _ hstate hstep => namesDistinct_addDeclaration hstate hstep) hnil hfold
      obtain rfl : declared = given := foldlM_addDeclaration hfold
      refine Or.inl ⟨hdistinct, fun limit => ?_⟩
      rw [buildWithin, hfold]
      rfl
  | error error =>
      obtain ⟨declaration, _, reached, hadd⟩ := exists_error_of_foldlM hfold
      refine Or.inr ⟨declaration.fullName, fun limit => ?_⟩
      rw [buildWithin, hfold, ← (addDeclaration_eq_error_iff.mp hadd).2]
      rfl

/-- If definitions let their arguments be, a search for mentioned types ends: with a limit at which
there is room for all instances it is not stopped, and a higher limit makes no difference. A build
that succeeds adds at most as many types as there are instances. -/
theorem build_bounded (hsteady : AllSteady given) :
    (∀ limit count, given.length + room given ≤ limit →
        buildWithin limit given ≠ .error (.tooManyTypes count)) ∧
      (∀ limit, given.length + room given ≤ limit →
        buildWithin limit given = buildWithin (given.length + room given) given) ∧
      ∀ limit graph, buildWithin limit given = .ok graph →
        given <+: graph.declarations ∧ graph.size ≤ given.length + room given := by
  refine ⟨?_, ?_, ?_⟩
  · intro limit count hlimit h
    rcases buildWithin_cases given with ⟨hdistinct, hbuild⟩ | ⟨name, hbuild⟩
    · rw [hbuild] at h
      rcases bind_eq_error_iff.mp h with hsearch | ⟨known, _, h⟩
      · exact addAllMentioned_ne_tooManyTypes hsteady hdistinct hlimit count hsearch
      · rcases bind_eq_error_iff.mp h with hresolve | ⟨nodes, _, h⟩
        · obtain ⟨entry, _, hentry⟩ := exists_error_of_mapM hresolve
          rcases exists_of_resolve_error hentry with ⟨_, _, herror⟩ | ⟨_, _, herror⟩ <;>
            cases herror
        · cases h
    · rw [hbuild] at h
      cases h
  · intro limit hlimit
    rcases buildWithin_cases given with ⟨hdistinct, hbuild⟩ | ⟨name, hbuild⟩
    · rw [hbuild, hbuild, addAllMentioned_of_le hlimit]
      exact addAllMentioned_ne_tooManyTypes hsteady hdistinct (Nat.le_refl _)
    · rw [hbuild, hbuild]
  · intro limit graph h
    obtain ⟨_, hsearch, _⟩ := declarations_of_build h
    have hsearched := (Searched.start given).of_addAllMentioned hsearch
    have hlength := length_le_of_nodup ((wellFormed_of_build h).names_nodup.of_map _)
      fun declaration hmem => (hsearched.grown declaration hmem).isInstance hsteady
    rw [List.length_map] at hlength
    have hjustified := justified_of_build h
    have hkept := hjustified.declared_prefix
    exact ⟨hkept, hlength⟩

/-- Pairs extend themselves the other way round and cells of their first part, cells extend pairs
with `int`, and a user extends one pair. -/
def circling : List Declaration :=
  [{ (Declaration.ofPath .interface "N" "Pair").openGeneric ["T", "U"] with
      interfaces := [⟨"N.Pair", [⟨"U", [], ""⟩, ⟨"T", [], ""⟩], ""⟩,
        ⟨"N.Cell", [⟨"T", [], ""⟩], ""⟩] },
   { (Declaration.ofPath .interface "N" "Cell").openGeneric ["T"] with
      interfaces := [⟨"N.Pair", [⟨"T", [], ""⟩, ⟨"int", [], ""⟩], ""⟩] },
   { Declaration.ofPath .interface "N" "User" with
      interfaces := [⟨"N.Pair", [⟨"int", [], ""⟩, ⟨"string", [], ""⟩], ""⟩] }]

/-- The graph of `circling`. -/
def circlingGraph : TypeGraph :=
  ⟨[⟨circling[0], none, 0⟩, ⟨circling[1], none, 1⟩, ⟨circling[2], none, 2⟩,
    ⟨circling[0].closeOver ["T", "U"] [named "int", named "string"], none, 0⟩,
    ⟨circling[0].closeOver ["T", "U"] [named "string", named "int"], none, 0⟩,
    ⟨circling[1].closeOver ["T"] [named "int"], none, 1⟩,
    ⟨circling[1].closeOver ["T"] [named "string"], none, 1⟩,
    ⟨circling[0].closeOver ["T", "U"] [named "int", named "int"], none, 0⟩]⟩

/-- The search ends although the definitions extend each other in circles: five types are added, and
there is room for six. -/
theorem build_circling :
    AllSteady circling ∧ room circling = 6 ∧
      (∀ count, build circling ≠ .error (.tooManyTypes count)) ∧
      build circling = .ok circlingGraph ∧ circlingGraph.size ≤ 9 := by
  have hroom : room circling = 6 := by decide +kernel
  have hsteady : AllSteady circling := by decide +kernel
  have hbuild : build circling = .ok circlingGraph := by rfl
  obtain ⟨hends, _, hsize⟩ := build_bounded hsteady
  refine ⟨hsteady, hroom, fun count => hends _ _ ?_, hbuild, ?_⟩
  · rw [hroom]
    decide
  · have hle := (hsize _ _ hbuild).2
    rwa [hroom] at hle

end RadioBroker.TypeGraph
