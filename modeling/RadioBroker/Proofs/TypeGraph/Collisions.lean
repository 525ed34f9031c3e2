import RadioBroker.Declaration.Builder
import RadioBroker.Proofs.TypeExpr.Words
import RadioBroker.Proofs.TypeGraph.Joining

/-!
# Names that collide

A build reports a full name as declared twice if two given declarations have it. Otherwise it
reports one exactly where its search arrives at a mention with marks whose type, written without
these marks, is known already: a mention is looked for under its whole written form, and what is
added for it has a name without marks. Where no mention has marks, all that is added has a new name.
-/

namespace RadioBroker.TypeGraph

variable {given declared known more : List Declaration} {definition closed mentioning : Declaration}
  {t : TypeExpr} {ts left : List TypeExpr} {limit next : Nat} {name : String} {error : BuildError}

/-! ## Names that are given twice -/

/-- The first full name that repeats: the declarations in front of the repetition have distinct
names, and one of them has this one. -/
def RepeatsFirst (given : List Declaration) (name : String) : Prop :=
  ∃ front repeated rest, given = front ++ repeated :: rest ∧ NamesDistinct front ∧
    repeated.fullName = name ∧ name ∈ front.map Declaration.fullName

/-- Declarations are refused at the first name that is taken. -/
theorem exists_of_foldlM_addDeclaration (hknown : NamesDistinct known)
    (h : given.foldlM addDeclaration known = .error error) :
    ∃ front repeated rest, given = front ++ repeated :: rest ∧ NamesDistinct (known ++ front) ∧
      repeated.fullName ∈ (known ++ front).map Declaration.fullName ∧
      .duplicateType repeated.fullName = error := by
  induction given generalizing known with
  | nil => cases h
  | cons declaration given ih =>
      rw [List.foldlM_cons, bind_eq_error_iff] at h
      rcases h with hhead | ⟨next, hnext, hrest⟩
      · obtain ⟨htaken, herror⟩ := addDeclaration_eq_error_iff.mp hhead
        exact ⟨[], declaration, given, rfl, by rwa [List.append_nil], by rwa [List.append_nil],
          herror⟩
      · have hdistinct := namesDistinct_addDeclaration hknown hnext
        obtain ⟨_, rfl⟩ := addDeclaration_eq_ok_iff.mp hnext
        obtain ⟨front, repeated, rest, rfl, hfront, htaken, herror⟩ := ih hdistinct hrest
        rw [List.append_assoc, List.singleton_append] at hfront htaken
        exact ⟨declaration :: front, repeated, rest, rfl, hfront, htaken, herror⟩

/-- Given declarations are refused exactly if a name repeats, and then under the first such name. -/
theorem foldlM_addDeclaration_eq_error_iff :
    given.foldlM addDeclaration [] = .error error ↔
      ∃ name, RepeatsFirst given name ∧ .duplicateType name = error := by
  constructor
  · intro h
    obtain ⟨front, repeated, rest, hgiven, hfront, htaken, herror⟩ :=
      exists_of_foldlM_addDeclaration (show NamesDistinct [] from List.nodup_nil) h
    exact ⟨_, ⟨front, repeated, rest, hgiven, hfront, rfl, htaken⟩, herror⟩
  · rintro ⟨_, ⟨front, repeated, rest, rfl, hfront, rfl, htaken⟩, rfl⟩
    have hadded : front.foldlM addDeclaration [] = .ok front :=
      foldlM_addDeclaration_of_distinct hfront
    rw [List.foldlM_append, hadded]
    show (repeated :: rest).foldlM addDeclaration front = _
    rw [List.foldlM_cons, addDeclaration_eq_error_iff.mpr ⟨htaken, rfl⟩]
    rfl

/-- Distinct names do not repeat. -/
theorem NamesDistinct.not_repeatsFirst (h : NamesDistinct given) : ¬ RepeatsFirst given name := by
  rintro ⟨front, repeated, rest, rfl, -, rfl, htaken⟩
  rw [NamesDistinct, List.map_append, List.nodup_append] at h
  exact h.2.2 _ htaken _ (List.mem_map_of_mem List.mem_cons_self) rfl

/-- Names are distinct, or there is a first one that repeats. -/
theorem namesDistinct_or_repeatsFirst (given : List Declaration) :
    NamesDistinct given ∨ ∃ name, RepeatsFirst given name := by
  cases hfold : given.foldlM addDeclaration [] with
  | ok declared =>
      have hnil : NamesDistinct [] := List.nodup_nil
      have hdistinct : NamesDistinct declared := foldlM_invariant
        (fun _ _ _ hstate hstep => namesDistinct_addDeclaration hstate hstep) hnil hfold
      obtain rfl : declared = given := foldlM_addDeclaration hfold
      exact Or.inl hdistinct
  | error error =>
      obtain ⟨name, hname, _⟩ := foldlM_addDeclaration_eq_error_iff.mp hfold
      exact Or.inr ⟨name, hname⟩

/-- Only one name is the first that repeats. -/
theorem RepeatsFirst.unique {other : String} (h : RepeatsFirst given name)
    (hother : RepeatsFirst given other) : name = other := by
  have hname := foldlM_addDeclaration_eq_error_iff.mpr ⟨name, h, rfl⟩
  have hotherName := foldlM_addDeclaration_eq_error_iff.mpr ⟨other, hother, rfl⟩
  exact BuildError.duplicateType.inj (Except.error.inj (hname.symm.trans hotherName))

/-! ## Mentions that collide -/

/-- A mention stands for a type under a name that is taken: it has marks and is not known with them,
but without them it is. -/
structure Collides (declared known : List Declaration) (t : TypeExpr) (name : String) : Prop where
  marked : t.suffix ≠ ""
  unknown : ∀ other ∈ known, other.fullName ≠ t.display
  defined : ∃ definition, definitionFor declared t = .ok (some definition)
  unmarked : TypeExpr.display ⟨t.head, t.arguments, ""⟩ = name
  taken : name ∈ known.map Declaration.fullName

/-- The definition that a mention applies takes as many arguments as the mention has. -/
theorem exists_close (h : isOpenOver definition t.arity = true) :
    ∃ closed, definition.close t.arguments = .ok closed := by
  simp only [isOpenOver, Bool.and_eq_true, decide_eq_true_eq] at h
  obtain ⟨hopen, hlength⟩ := h
  cases hgenerics : definition.generics with
  | notGeneric => simp [Declaration.isOpen, hgenerics, Generics.isOpen] at hopen
  | closedOver name arguments => simp [Declaration.isOpen, hgenerics, Generics.isOpen] at hopen
  | openOver parameters =>
      rw [hgenerics] at hlength
      exact ⟨_, Declaration.close_eq_ok_iff.mpr ⟨parameters, hgenerics, hlength, rfl⟩⟩

/-- A mention is refused under a name that is taken exactly if it collides. -/
theorem addMentioned_eq_duplicateType_iff (harity : 0 < t.arity) :
    addMentioned declared known t = .error (.duplicateType name) ↔
      Collides declared known t name := by
  unfold addMentioned
  constructor
  · intro h
    split at h
    · cases h
    rename_i hunknown
    simp only [List.any_eq_true, decide_eq_true_eq, not_exists, not_and] at hunknown
    rcases bind_eq_error_iff.mp h with hdefinition | ⟨definition, hdefinition, h⟩
    · obtain ⟨_, _, herror⟩ := exists_of_definitionFor_error hdefinition
      cases herror
    cases definition with
    | none => cases h
    | some definition =>
        obtain ⟨_, hhead, hopen⟩ := cases_of_definitionFor hdefinition
        obtain ⟨closed, hclose⟩ := exists_close hopen
        simp only [hclose] at h
        obtain ⟨htaken, herror⟩ := addDeclaration_eq_error_iff.mp h
        obtain rfl := BuildError.duplicateType.inj herror
        have hclosed := fullName_of_close hhead harity hclose
        refine ⟨fun hplain => ?_, hunknown, ⟨definition, hdefinition⟩, hclosed.symm, htaken⟩
        -- Without marks the name would be the one that is not known.
        obtain ⟨other, hother, hname⟩ := List.mem_map.mp htaken
        obtain ⟨head, arguments, suffix⟩ := t
        cases hplain
        exact hunknown other hother (hname.trans hclosed)
  · intro h
    obtain ⟨_, hunknown, ⟨definition, hdefinition⟩, rfl, htaken⟩ := h
    obtain ⟨_, hhead, hopen⟩ := cases_of_definitionFor hdefinition
    obtain ⟨closed, hclose⟩ := exists_close hopen
    have hclosed := fullName_of_close hhead harity hclose
    rw [if_neg (by simpa using hunknown), hdefinition]
    show ((definition.close t.arguments).mapError BuildError.notClosable >>=
      addDeclaration known) = _
    rw [hclose, ← hclosed]
    exact addDeclaration_eq_error_iff.mpr ⟨hclosed ▸ htaken, rfl⟩

/-! ## Where a search arrives -/

/-- A search of what is `declared` arrives where `known` is known, the first `next` declarations
have been opened, and of the mentions of the last of them those in `left` are still to be dealt
with. -/
inductive Arrives (declared : List Declaration) : List Declaration → Nat → List TypeExpr → Prop
  | start : Arrives declared declared 0 []
  | opened {known : List Declaration} {next : Nat} {mentioning : Declaration}
      (h : Arrives declared known next []) (hnext : known[next]? = some mentioning) :
      Arrives declared known (next + 1) (mentionedBy mentioning)
  | settled {known more : List Declaration} {next : Nat} {t : TypeExpr} {left : List TypeExpr}
      (h : Arrives declared known next (t :: left))
      (hmore : addMentioned declared known t = .ok more) : Arrives declared more next left

namespace Arrives

/-- What is known where a search arrives is grown, and so are the types whose mentions are left. -/
theorem grown (h : Arrives declared known next left) :
    declared ⊆ known ∧ (∀ declaration ∈ known, Grown declared declaration) ∧
      ∀ t ∈ left, ∃ mentioning, Grown declared mentioning ∧ t ∈ mentionedBy mentioning := by
  induction h with
  | start => exact ⟨List.Subset.refl _, fun _ hmem => .given hmem, List.forall_mem_nil _⟩
  | opened _ hnext ih =>
      obtain ⟨hsubset, hgrown, _⟩ := ih
      exact ⟨hsubset, hgrown, fun t ht => ⟨_, hgrown _ (List.mem_of_getElem? hnext), ht⟩⟩
  | settled _ hmore ih =>
      obtain ⟨hsubset, hgrown, hleft⟩ := ih
      obtain ⟨⟨mentioning, hmentioning, hmention⟩, hrest⟩ := List.forall_mem_cons.mp hleft
      obtain ⟨hgrows, _, hnew⟩ := addMentioned_cases hsubset hmore
      refine ⟨List.Subset.trans hsubset hgrows.subset, fun declaration hmem => ?_, hrest⟩
      rcases hnew declaration hmem with hknown | happlies
      · exact hgrown declaration hknown
      · exact .closed hmentioning hmention happlies

/-- A mention that is left has arguments. -/
theorem arity_pos (h : Arrives declared known next (t :: left)) : 0 < t.arity := by
  obtain ⟨mentioning, _, hmention⟩ := h.grown.2.2 t List.mem_cons_self
  exact (mem_mentionedBy_iff.mp hmention).2.2

/-- A search that arrives at some mentions goes on behind them when all of them are settled. -/
theorem of_foldlM (h : Arrives declared known next ts)
    (hmore : ts.foldlM (addMentioned declared) known = .ok more) :
    Arrives declared more next [] := by
  induction ts generalizing known with
  | nil =>
      cases hmore
      exact h
  | cons t ts ih =>
      rw [List.foldlM_cons, bind_eq_ok_iff] at hmore
      obtain ⟨between, hbetween, hrest⟩ := hmore
      exact ih (h.settled hbetween) hrest

/-- Mentions that cannot all be settled fail at one at which the search arrives. -/
theorem exists_of_foldlM (h : Arrives declared known next ts)
    (herror : ts.foldlM (addMentioned declared) known = .error error) :
    ∃ reached t left, Arrives declared reached next (t :: left) ∧
      addMentioned declared reached t = .error error := by
  induction ts generalizing known with
  | nil => cases herror
  | cons t ts ih =>
      rw [List.foldlM_cons, bind_eq_error_iff] at herror
      rcases herror with hhead | ⟨between, hbetween, hrest⟩
      · exact ⟨known, t, ts, h, hhead⟩
      · exact ih (h.settled hbetween) hrest

/-- A search that fails for something else than room fails at a mention at which it arrives. -/
theorem exists_of_addAllMentioned (h : Arrives declared known next [])
    (herror : addAllMentioned declared limit known next = .error error)
    (hroom : ∀ count, .tooManyTypes count ≠ error) :
    ∃ reached position t left, position ≤ next + limit ∧
      Arrives declared reached position (t :: left) ∧
      addMentioned declared reached t = .error error := by
  induction limit generalizing known next with
  | zero =>
      unfold addAllMentioned at herror
      split at herror
      · cases herror
      · exact absurd (Except.error.inj herror) (hroom _)
  | succ limit ih =>
      unfold addAllMentioned at herror
      split at herror
      · cases herror
      · rename_i mentioning hnext
        have hopened := h.opened hnext
        rcases bind_eq_error_iff.mp herror with hfold | ⟨more, hmore, hrest⟩
        · obtain ⟨reached, t, left, harrives, hadd⟩ := hopened.exists_of_foldlM hfold
          exact ⟨reached, next + 1, t, left, by omega, harrives, hadd⟩
        · obtain ⟨reached, position, t, left, hposition, harrives, hadd⟩ :=
            ih (hopened.of_foldlM hmore) hrest
          exact ⟨reached, position, t, left, by omega, harrives, hadd⟩

/-- What is left where a search arrives decides how the search ends, if it may search that far. -/
theorem addAllMentioned_eq (h : Arrives declared known next left) (hlimit : next ≤ limit) :
    addAllMentioned declared limit declared 0 =
      (left.foldlM (addMentioned declared) known >>= fun more =>
        addAllMentioned declared (limit - next) more next) := by
  induction h with
  | start => rfl
  | @opened known next mentioning _ hnext ih =>
      obtain ⟨fewer, rfl⟩ : ∃ fewer, limit = next + 1 + fewer := ⟨limit - (next + 1), by omega⟩
      have hthis : next + 1 + fewer - next = fewer + 1 := by omega
      have hbehind : next + 1 + fewer - (next + 1) = fewer := by omega
      rw [ih (by omega), hthis, hbehind]
      show addAllMentioned declared (fewer + 1) known next = _
      rw [addAllMentioned, hnext]
  | @settled known more next t left _ hmore ih =>
      rw [ih hlimit, List.foldlM_cons, hmore]
      rfl

end Arrives

/-- A search finds a name twice exactly if it arrives at a mention that collides. -/
theorem addAllMentioned_eq_duplicateType_iff :
    addAllMentioned declared limit declared 0 = .error (.duplicateType name) ↔
      ∃ known next t left, next ≤ limit ∧ Arrives declared known next (t :: left) ∧
        Collides declared known t name := by
  constructor
  · intro h
    obtain ⟨known, next, t, left, hlimit, harrives, hadd⟩ :=
      Arrives.start.exists_of_addAllMentioned h (by simp)
    exact ⟨known, next, t, left, by omega, harrives,
      (addMentioned_eq_duplicateType_iff harrives.arity_pos).mp hadd⟩
  · rintro ⟨known, next, t, left, hlimit, harrives, hcollides⟩
    have hadd := (addMentioned_eq_duplicateType_iff harrives.arity_pos).mpr hcollides
    rw [harrives.addAllMentioned_eq hlimit, List.foldlM_cons, hadd]
    rfl

/-! ## Builds -/

/-- A build of declarations of which a name repeats reports it. -/
theorem buildWithin_of_repeatsFirst (h : RepeatsFirst given name) :
    buildWithin limit given = .error (.duplicateType name) := by
  rw [buildWithin, foldlM_addDeclaration_eq_error_iff.mpr ⟨name, h, rfl⟩]
  rfl

/-- A build of declarations of distinct names finds a name twice where the search for mentioned
types does. -/
theorem buildWithin_eq_duplicateType_iff (hdistinct : NamesDistinct given) :
    buildWithin limit given = .error (.duplicateType name) ↔
      addAllMentioned given limit given 0 = .error (.duplicateType name) := by
  have hadded : given.foldlM addDeclaration [] = .ok given :=
    foldlM_addDeclaration_of_distinct hdistinct
  rw [buildWithin, hadded]
  constructor
  · intro h
    rcases bind_eq_error_iff.mp h with hdeclared | ⟨declared, hdeclared, h⟩
    · cases hdeclared
    obtain rfl := Except.ok.inj hdeclared
    rcases bind_eq_error_iff.mp h with hsearch | ⟨known, _, h⟩
    · exact hsearch
    · rcases bind_eq_error_iff.mp h with hresolve | ⟨nodes, _, h⟩
      · obtain ⟨entry, _, hentry⟩ := exists_error_of_mapM hresolve
        rcases exists_of_resolve_error hentry with ⟨_, _, herror⟩ | ⟨_, _, herror⟩ <;> cases herror
      · cases h
  · intro hsearch
    exact bind_eq_error_iff.mpr (Or.inr ⟨given, rfl, bind_eq_error_iff.mpr (Or.inl hsearch)⟩)

/-- No entry of an extension list that has arguments has marks, and no type extends a parameter. -/
def PlainExtensions (given : List Declaration) : Prop :=
  ∀ declaration ∈ given, ∀ t ∈ declaration.interfaces,
    if t.arguments = [] then t.head ∉ declaration.generics.parameters else t.suffix = ""

instance (given : List Declaration) : Decidable (PlainExtensions given) :=
  inferInstanceAs (Decidable (∀ declaration ∈ given, ∀ t ∈ declaration.interfaces,
    if t.arguments = [] then t.head ∉ declaration.generics.parameters else t.suffix = ""))

/-- Where extension lists are plain, nothing that is mentioned has marks. -/
theorem PlainExtensions.suffix_eq (h : PlainExtensions given) {declaration : Declaration}
    (hgrown : Grown given declaration) (ht : t ∈ mentionedBy declaration) : t.suffix = "" := by
  obtain ⟨_, ht, harity⟩ := mem_mentionedBy_iff.mp ht
  have harguments : t.arguments ≠ [] := List.ne_nil_of_length_pos harity
  cases hgrown with
  | given hmem =>
      have hplain := h _ hmem t ht
      rwa [if_neg harguments] at hplain
  | closed _ _ happlies =>
      obtain ⟨definition, hdefinition, _, _, hclose⟩ := happlies.applied
      obtain ⟨parameters, hgenerics, _, rfl⟩ := Declaration.close_eq_ok_iff.mp hclose
      obtain ⟨⟨head, inner, suffix⟩, hs, rfl⟩ := List.mem_map.mp ht
      have hplain := h definition hdefinition _ hs
      rw [hgenerics] at hplain
      cases inner with
      | nil =>
          -- The head is no parameter and stays without arguments.
          rw [if_pos rfl] at hplain
          exact absurd (TypeExpr.arguments_substitute hplain) harguments
      | cons first others =>
          rw [if_neg (by simp)] at hplain
          rw [TypeExpr.substitute]
          exact hplain

/-- A build finds a full name twice exactly if it is the first that repeats among the given
declarations, or if none repeats and the search for mentioned types arrives at a mention that
collides. Mentions without marks do not. -/
theorem duplicateType_iff (limit : Nat) (given : List Declaration) (name : String) :
    (buildWithin limit given = .error (.duplicateType name) ↔
      RepeatsFirst given name ∨ NamesDistinct given ∧ ∃ known next t left, next ≤ limit ∧
        Arrives given known next (t :: left) ∧ Collides given known t name) ∧
      ((∀ declaration, Grown given declaration → ∀ t ∈ mentionedBy declaration, t.suffix = "") →
        (buildWithin limit given = .error (.duplicateType name) ↔ RepeatsFirst given name)) := by
  have hbuild : buildWithin limit given = .error (.duplicateType name) ↔
      RepeatsFirst given name ∨ NamesDistinct given ∧ ∃ known next t left, next ≤ limit ∧
        Arrives given known next (t :: left) ∧ Collides given known t name := by
    rw [← addAllMentioned_eq_duplicateType_iff]
    rcases namesDistinct_or_repeatsFirst given with hdistinct | ⟨first, hfirst⟩
    · rw [or_iff_right hdistinct.not_repeatsFirst, and_iff_right hdistinct,
        buildWithin_eq_duplicateType_iff hdistinct]
    · have hnot : ¬ NamesDistinct given := fun hdistinct => hdistinct.not_repeatsFirst hfirst
      rw [buildWithin_of_repeatsFirst hfirst, or_iff_left fun h => hnot h.1, Except.error.injEq,
        BuildError.duplicateType.injEq]
      exact ⟨fun heq => heq ▸ hfirst, hfirst.unique⟩
  refine ⟨hbuild, fun hplain => hbuild.trans (or_iff_left ?_)⟩
  rintro ⟨-, known, next, t, left, -, harrives, hcollides⟩
  obtain ⟨mentioning, hgrown, hmention⟩ := harrives.grown.2.2 t List.mem_cons_self
  exact hcollides.marked (hplain mentioning hgrown t hmention)

/-- A box, a user of two boxes of `int`, and another user. -/
def twoUsers : List Declaration :=
  [(Declaration.ofPath .interface "N" "IBox").openGeneric ["T"],
   { Declaration.ofPath .interface "N" "IUser" with
      interfaces :=
        [⟨"N.IBox", [TypeExpr.named "int"], ""⟩, ⟨"N.IBox", [TypeExpr.named "int"], ""⟩] },
   Declaration.ofPath .interface "N" "IUser",
   (Declaration.ofPath .interface "N" "IBox").openGeneric ["T"]]

/-- Two names are declared again. No box is mentioned with marks, and the name that repeats first is
reported. -/
theorem duplicateType_twoUsers :
    PlainExtensions twoUsers ∧ RepeatsFirst twoUsers "N.IUser" ∧
      build twoUsers = .error (.duplicateType "N.IUser") := by
  have hplain : PlainExtensions twoUsers := by decide
  have hrepeats : RepeatsFirst twoUsers "N.IUser" :=
    ⟨twoUsers.take 2, _, _, rfl, by decide, rfl, by decide⟩
  have hiff := (duplicateType_iff typeLimit twoUsers "N.IUser").2
    fun _ hgrown _ ht => hplain.suffix_eq hgrown ht
  exact ⟨hplain, hrepeats, hiff.mpr hrepeats⟩

/-- A box, and a user of boxes of `int`, of which one may be null. -/
def nullableBox : List Declaration :=
  [(Declaration.ofPath .interface "N" "IBox").openGeneric ["T"],
   { Declaration.ofPath .interface "N" "IUser" with
      interfaces :=
        [⟨"N.IBox", [TypeExpr.named "int"], ""⟩, ⟨"N.IBox", [TypeExpr.named "int"], "?"⟩] }]

/-- The box that may be null collides with the one that may not, though all given names are
distinct. -/
theorem duplicateType_nullableBox :
    TypeExpr.parse "N.IBox<int>?" = .ok ⟨"N.IBox", [TypeExpr.named "int"], "?"⟩ ∧
      NamesDistinct nullableBox ∧ (∀ name, ¬ RepeatsFirst nullableBox name) ∧
      build nullableBox = .error (.duplicateType "N.IBox<int>") := by
  have hdistinct : NamesDistinct nullableBox := by decide
  exact ⟨by decide +kernel, hdistinct, fun _ => hdistinct.not_repeatsFirst, by rfl⟩

end RadioBroker.TypeGraph
