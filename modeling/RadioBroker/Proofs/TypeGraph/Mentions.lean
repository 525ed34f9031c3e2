import RadioBroker.Proofs.TypeExpr.Substitution
import RadioBroker.Proofs.TypeGraph.ByName

/-!
# Closed types that are mentioned

Which types a build adds can be said without the order in which it finds them: those that an
extension list mentions, of a given declaration or of one that is added, and that are not declared.
That is so where no two definitions could be meant, and it is why the order of declarations does not
matter. -/

namespace RadioBroker.TypeGraph

/-- No two open definitions have one family name and one number of parameters. -/
def FamiliesDistinct (declared : List Declaration) : Prop :=
  ∀ first ∈ declared, ∀ second ∈ declared, first.isOpen = true → second.isOpen = true →
    first.familyName = second.familyName →
    first.generics.parameters.length = second.generics.parameters.length → first = second

variable {declared known more final : List Declaration} {definition closed mentioning : Declaration}
  {t : TypeExpr} {ts : List TypeExpr}

/-! ## The definition that is meant -/

/-- The definition that a mentioned type applies is a declared one over as many parameters. -/
theorem cases_of_definitionFor (h : definitionFor declared t = .ok (some definition)) :
    definition ∈ declared ∧ definition.familyName = t.head ∧
      isOpenOver definition t.arity = true := by
  unfold definitionFor at h
  split at h
  · cases h
  · split at h
    · rename_i found hfound
      cases h
      have hmem := List.mem_filter.mp (List.mem_of_find?_eq_some hfound)
      have hopen := List.find?_some hfound
      exact ⟨hmem.1, of_decide_eq_true hmem.2, hopen⟩
    · cases h

/-- No definition is looked for only where no family has the name. -/
theorem familyName_ne_of_definitionFor (h : definitionFor declared t = .ok none) :
    ∀ other ∈ declared, other.familyName ≠ t.head := by
  unfold definitionFor at h
  split at h
  · rename_i hnone
    intro other hother hname
    have hmem : other ∈ declared.filter fun declaration => declaration.familyName = t.head :=
      List.mem_filter.mpr ⟨hother, decide_eq_true hname⟩
    rw [hnone] at hmem
    cases hmem
  · split at h <;> cases h

/-- Looking for a definition fails only where the family has none over as many parameters. -/
theorem exists_of_definitionFor_error {error : BuildError}
    (h : definitionFor declared t = .error error) :
    ∃ name definition, .unknownDefinition name definition = error := by
  unfold definitionFor at h
  split at h
  · cases h
  · split at h
    · cases h
    · exact ⟨_, _, Except.error.inj h⟩

/-- Only one definition can be meant. -/
theorem FamiliesDistinct.unique (h : FamiliesDistinct declared) {first second : Declaration}
    {name : String} {arity : Nat} (hfirst : first ∈ declared) (hsecond : second ∈ declared)
    (hfirstName : first.familyName = name) (hsecondName : second.familyName = name)
    (hfirstOpen : isOpenOver first arity = true) (hsecondOpen : isOpenOver second arity = true) :
    first = second := by
  simp only [isOpenOver, Bool.and_eq_true, decide_eq_true_eq] at hfirstOpen hsecondOpen
  exact h first hfirst second hsecond hfirstOpen.1 hsecondOpen.1
    (hfirstName.trans hsecondName.symm) (hfirstOpen.2.trans hsecondOpen.2.symm)

/-! ## What is added -/

/-- What a declaration mentions are the generic types of its extension list, unless it is a
definition over type parameters. -/
theorem mem_mentionedBy_iff : t ∈ mentionedBy mentioning ↔
    mentioning.isOpen = false ∧ t ∈ mentioning.interfaces ∧ 0 < t.arity := by
  unfold mentionedBy
  split
  · rename_i hopen
    simp [hopen]
  · rename_i hopen
    simp [hopen]

/-- A closed type is what a mentioned type stands for: it is not declared, and a declared definition
of its family, applied to its arguments, makes the closed type. -/
structure Applies (declared : List Declaration) (t : TypeExpr) (closed : Declaration) : Prop where
  undeclared : ∀ other ∈ declared, other.fullName ≠ t.display
  applied : ∃ definition ∈ declared, definition.familyName = t.head ∧
    isOpenOver definition t.arity = true ∧ definition.close t.arguments = .ok closed

/-- What is declared, and what is mentioned by it or by what is mentioned, and so on. -/
inductive Grown (declared : List Declaration) : Declaration → Prop
  | given {declaration : Declaration} (h : declaration ∈ declared) : Grown declared declaration
  | closed {mentioning closed : Declaration} {t : TypeExpr} (hgrown : Grown declared mentioning)
      (hmention : t ∈ mentionedBy mentioning) (happlies : Applies declared t closed) :
      Grown declared closed

/-- A mention has been dealt with: its name is known, no family has its name, or what it stands for
has been added. -/
def Settled (declared known : List Declaration) (t : TypeExpr) : Prop :=
  (∃ other ∈ known, other.fullName = t.display) ∨ definitionFor declared t = .ok none ∨
    ∃ closed ∈ known, Applies declared t closed

/-- What is settled stays settled. -/
theorem Settled.mono (h : Settled declared known t) (hsubset : known ⊆ more) :
    Settled declared more t := by
  rcases h with ⟨other, hother, hname⟩ | hnone | ⟨closed, hclosed, happlies⟩
  · exact Or.inl ⟨other, hsubset hother, hname⟩
  · exact Or.inr (Or.inl hnone)
  · exact Or.inr (Or.inr ⟨closed, hsubset hclosed, happlies⟩)

/-- Which declarations are grown does not depend on the order of those declared. -/
theorem Grown.of_mem_iff {other : List Declaration} {declaration : Declaration}
    (hsame : ∀ entry, entry ∈ declared ↔ entry ∈ other) (h : Grown declared declaration) :
    Grown other declaration := by
  induction h with
  | given hmem => exact .given ((hsame _).mp hmem)
  | closed _ hmention happlies ih =>
      obtain ⟨definition, hdefinition, hclose⟩ := happlies.applied
      refine .closed ih hmention ⟨fun entry hentry => ?_, definition, (hsame _).mp hdefinition,
        hclose⟩
      exact happlies.undeclared entry ((hsame _).mpr hentry)

/-! ## The search -/

/-- A mention is settled by adding at most what it stands for, behind all that is known. -/
theorem addMentioned_cases (hdeclared : declared ⊆ known)
    (h : addMentioned declared known t = .ok more) :
    known <+: more ∧ Settled declared more t ∧
      ∀ other ∈ more, other ∈ known ∨ Applies declared t other := by
  unfold addMentioned at h
  split at h
  · rename_i hknown
    cases h
    simp only [List.any_eq_true, decide_eq_true_eq] at hknown
    exact ⟨List.prefix_rfl, Or.inl hknown, fun _ hother => Or.inl hother⟩
  · rename_i hnew
    simp only [List.any_eq_true, decide_eq_true_eq, not_exists, not_and] at hnew
    obtain ⟨definition, hdefinition, h⟩ := bind_eq_ok_iff.mp h
    cases definition with
    | none =>
        cases h
        exact ⟨List.prefix_rfl, Or.inr (Or.inl hdefinition), fun _ hother => Or.inl hother⟩
    | some definition =>
        obtain ⟨closed, hclosed, hadd⟩ := bind_eq_ok_iff.mp h
        obtain ⟨hmem, hname, hopen⟩ := cases_of_definitionFor hdefinition
        have happlies : Applies declared t closed :=
          ⟨fun other hother => hnew other (hdeclared hother), definition, hmem, hname, hopen,
            mapError_eq_ok_iff.mp hclosed⟩
        obtain ⟨_, rfl⟩ := addDeclaration_eq_ok_iff.mp hadd
        refine ⟨List.prefix_append _ _, Or.inr (Or.inr ⟨closed, by simp, happlies⟩), ?_⟩
        intro other hother
        rcases List.mem_append.mp hother with hknown | hself
        · exact Or.inl hknown
        · exact Or.inr (List.mem_singleton.mp hself ▸ happlies)

/-- Several mentions are settled one after another. -/
theorem foldlM_addMentioned_cases (hdeclared : declared ⊆ known)
    (h : ts.foldlM (addMentioned declared) known = .ok more) :
    known <+: more ∧ (∀ t ∈ ts, Settled declared more t) ∧
      ∀ other ∈ more, other ∈ known ∨ ∃ t ∈ ts, Applies declared t other := by
  induction ts generalizing known with
  | nil =>
      cases h
      exact ⟨List.prefix_rfl, List.forall_mem_nil _, fun _ hother => Or.inl hother⟩
  | cons t ts ih =>
      rw [List.foldlM_cons, bind_eq_ok_iff] at h
      obtain ⟨next, hnext, hrest⟩ := h
      obtain ⟨hgrows, hsettled, hnew⟩ := addMentioned_cases hdeclared hnext
      obtain ⟨hlater, hall, hlaterNew⟩ := ih (List.Subset.trans hdeclared hgrows.subset) hrest
      refine ⟨hgrows.trans hlater, List.forall_mem_cons.mpr ⟨hsettled.mono hlater.subset, hall⟩, ?_⟩
      intro other hother
      rcases hlaterNew other hother with hbetween | ⟨s, hs, happlies⟩
      · exact (hnew other hbetween).imp_right fun happlies => ⟨t, List.mem_cons_self, happlies⟩
      · exact Or.inr ⟨s, List.mem_cons_of_mem _ hs, happlies⟩

/-- A search has got to position `next`: what is known is grown, and all that the declarations in
front of the position mention is settled. -/
structure Searched (declared known : List Declaration) (next : Nat) : Prop where
  declared_subset : declared ⊆ known
  grown : ∀ declaration ∈ known, Grown declared declaration
  settled : ∀ declaration ∈ known.take next, ∀ t ∈ mentionedBy declaration,
    Settled declared known t

/-- A search starts with what is declared. -/
theorem Searched.start (declared : List Declaration) : Searched declared declared 0 where
  declared_subset := List.Subset.refl _
  grown _ hmem := .given hmem
  settled _ hmem := absurd hmem List.not_mem_nil

/-- The next declaration is searched. -/
theorem Searched.step {next : Nat} (h : Searched declared known next)
    (hnext : known[next]? = some mentioning)
    (hmore : (mentionedBy mentioning).foldlM (addMentioned declared) known = .ok more) :
    Searched declared more (next + 1) := by
  obtain ⟨hgrows, hsettled, hnew⟩ := foldlM_addMentioned_cases h.declared_subset hmore
  refine ⟨List.Subset.trans h.declared_subset hgrows.subset, ?_, ?_⟩
  · intro declaration hmem
    rcases hnew declaration hmem with hknown | ⟨t, ht, happlies⟩
    · exact h.grown declaration hknown
    · exact .closed (h.grown mentioning (List.mem_of_getElem? hnext)) ht happlies
  · -- What is added stands behind the position, so the declarations in front of it are the same.
    have hlt := (List.getElem?_eq_some_iff.mp hnext).1
    have htake : more.take (next + 1) = known.take next ++ [mentioning] := by
      obtain ⟨added, rfl⟩ := hgrows
      rw [List.take_append_of_le_length hlt, List.take_add_one, hnext, Option.toList_some]
    rw [htake]
    intro declaration hmem t ht
    rcases List.mem_append.mp hmem with hearly | hself
    · exact (h.settled declaration hearly t ht).mono hgrows.subset
    · exact hsettled t (List.mem_singleton.mp hself ▸ ht)

/-- A search behind which there is nothing has got to the end. -/
theorem Searched.of_end {next : Nat} (h : Searched declared known next)
    (hend : known[next]? = none) : Searched declared known known.length where
  declared_subset := h.declared_subset
  grown := h.grown
  settled := by
    have hsettled := h.settled
    rw [List.take_of_length_le (List.getElem?_eq_none_iff.mp hend)] at hsettled
    rwa [List.take_length]

/-- A search that ends has got to the end. -/
theorem Searched.of_addAllMentioned {limit next : Nat} (h : Searched declared known next)
    (hfinal : addAllMentioned declared limit known next = .ok final) :
    Searched declared final final.length := by
  obtain ⟨_, hsearched, hend⟩ := addAllMentioned_induction (Searched declared)
    (fun _ _ _ _ hsearched hnext hmore => hsearched.step hnext hmore) h hfinal
  exact hsearched.of_end hend

/-! ## What a search adds -/

/-- The full name of an applied definition is the mention that applies it, without its marks. -/
theorem fullName_of_close (hname : definition.familyName = t.head) (harity : 0 < t.arity)
    (hclose : definition.close t.arguments = .ok closed) :
    closed.fullName = TypeExpr.display ⟨t.head, t.arguments, ""⟩ := by
  obtain ⟨parameters, _, _, rfl⟩ := Declaration.close_eq_ok_iff.mp hclose
  have harguments : t.arguments ≠ [] := List.ne_nil_of_length_pos harity
  rw [TypeExpr.display_mk, if_neg harguments, String.append_empty, ← hname]
  rfl

/-- The full name of what a mentioned type stands for is that type written without marks. -/
theorem Applies.fullName_eq (h : Applies declared t closed) (harity : 0 < t.arity) :
    closed.fullName = TypeExpr.display ⟨t.head, t.arguments, ""⟩ := by
  obtain ⟨definition, _, hname, _, hclose⟩ := h.applied
  exact fullName_of_close hname harity hclose

/-- What a mentioned type stands for depends on nothing but its head and its arguments. -/
theorem Applies.unique (hfamilies : FamiliesDistinct declared) {s : TypeExpr}
    {other : Declaration} (h : Applies declared t closed) (hother : Applies declared s other)
    (hhead : s.head = t.head) (harguments : s.arguments = t.arguments) : closed = other := by
  obtain ⟨definition, hmem, hname, hopen, hclose⟩ := h.applied
  obtain ⟨twin, htwin, htwinName, htwinOpen, htwinClose⟩ := hother.applied
  rw [hhead] at htwinName
  rw [TypeExpr.arity, harguments] at htwinOpen
  rw [harguments] at htwinClose
  cases hfamilies.unique hmem htwin hname htwinName hopen htwinOpen
  exact Except.ok.inj (hclose.symm.trans htwinClose)

/-- What is grown from well-formed extension lists has well-formed extension lists. -/
theorem Grown.wellFormed {declaration : Declaration} (h : Grown declared declaration)
    (hdeclared : ∀ entry ∈ declared, ∀ t ∈ entry.interfaces, t.WellFormed) :
    ∀ t ∈ declaration.interfaces, t.WellFormed := by
  induction h with
  | given hmem => exact hdeclared _ hmem
  | @closed mentioning closed s _ hmention happlies ih =>
      obtain ⟨definition, hdefinition, _, _, hclose⟩ := happlies.applied
      obtain ⟨parameters, _, _, rfl⟩ := Declaration.close_eq_ok_iff.mp hclose
      obtain ⟨_, harguments, _⟩ := ih s (mem_mentionedBy_iff.mp hmention).2.1
      intro t ht
      obtain ⟨inner, hinner, rfl⟩ := List.mem_map.mp ht
      exact (hdeclared definition hdefinition inner hinner).substitute harguments

/-- When a search has got to the end, exactly what is grown is known. -/
theorem Searched.mem_iff (hfamilies : FamiliesDistinct declared)
    (hdeclared : ∀ entry ∈ declared, ∀ t ∈ entry.interfaces, t.WellFormed)
    (h : Searched declared final final.length) {declaration : Declaration} :
    declaration ∈ final ↔ Grown declared declaration := by
  refine ⟨h.grown declaration, fun hgrown => ?_⟩
  induction hgrown with
  | given hmem => exact h.declared_subset hmem
  | @closed mentioning closed t hgrown hmention happlies ih =>
      have hsettled := h.settled mentioning (by rwa [List.take_length]) t hmention
      rcases hsettled with ⟨other, hother, hname⟩ | hnone | ⟨other, hother, hotherApplies⟩
      · -- The name is known: of a declared type it is not, so it is that of a closed one.
        cases h.grown other hother with
        | given hmem => exact absurd hname (happlies.undeclared other hmem)
        | @closed source _ s hsource hsourceMention hotherApplies =>
            obtain ⟨_, hs, hsarity⟩ := mem_mentionedBy_iff.mp hsourceMention
            have ht := hgrown.wellFormed hdeclared t (mem_mentionedBy_iff.mp hmention).2.1
            rw [hotherApplies.fullName_eq hsarity] at hname
            obtain rfl := (hsource.wellFormed hdeclared s hs).unmarked.display_inj ht hname
            rw [happlies.unique hfamilies hotherApplies rfl rfl]
            exact hother
      · obtain ⟨definition, hdefinition, hname, _⟩ := happlies.applied
        exact absurd hname (familyName_ne_of_definitionFor hnone definition hdefinition)
      · rw [happlies.unique hfamilies hotherApplies rfl rfl]
        exact hother

/-- A build consists of what is grown from the given declarations. -/
theorem mem_declarations_iff {given : List Declaration} {graph : TypeGraph}
    (h : build given = .ok graph) (hfamilies : FamiliesDistinct given)
    (hgiven : ∀ entry ∈ given, ∀ t ∈ entry.interfaces, t.WellFormed) {declaration : Declaration} :
    declaration ∈ graph.declarations ↔ Grown given declaration := by
  obtain ⟨_, hsearch, _⟩ := declarations_of_build h
  exact ((Searched.start given).of_addAllMentioned hsearch).mem_iff hfamilies hgiven

/-- Declarations in another order are built into the same types. -/
theorem declarations_perm_of_build {given reordered : List Declaration} {graph other : TypeGraph}
    (h : build given = .ok graph) (hother : build reordered = .ok other)
    (hperm : given.Perm reordered) (hfamilies : FamiliesDistinct given)
    (hgiven : ∀ entry ∈ given, ∀ t ∈ entry.interfaces, t.WellFormed) :
    graph.declarations.Perm other.declarations := by
  have hnodup : graph.declarations.Nodup := (wellFormed_of_build h).names_nodup.of_map _
  have hotherNodup : other.declarations.Nodup := (wellFormed_of_build hother).names_nodup.of_map _
  have hreordered : FamiliesDistinct reordered := fun first hfirst second hsecond =>
    hfamilies first (hperm.mem_iff.mpr hfirst) second (hperm.mem_iff.mpr hsecond)
  refine (List.perm_ext_iff_of_nodup hnodup hotherNodup).mpr fun declaration => ?_
  rw [mem_declarations_iff h hfamilies hgiven,
    mem_declarations_iff hother hreordered fun entry hentry =>
      hgiven entry (hperm.mem_iff.mpr hentry)]
  exact ⟨Grown.of_mem_iff fun _ => hperm.mem_iff, Grown.of_mem_iff fun _ => hperm.mem_iff.symm⟩

end RadioBroker.TypeGraph
