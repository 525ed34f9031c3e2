import RadioBroker.Proofs.TypeExpr.Names
import RadioBroker.Proofs.TypeGraph.Mentions

/-!
# Independent declarations side by side

Two lists of declarations are independent if what one of them extends has no name in common with the
families that the other one declares. A search through both lists together goes through the
declarations of either list as a search through that list alone does, and finds for them the same
definitions. What is known at any time is therefore a shuffle of what is known in the two searches,
and the graph of both lists is a shuffle of the two graphs.
-/

namespace RadioBroker.TypeGraph

variable {declared foreign whole known more done pending final : List Declaration}
  {declaration : Declaration} {t : TypeExpr} {ts : List TypeExpr}

/-! ## Families -/

/-- Whether a declaration has the family name of one that is declared. -/
def hasFamily (declared : List Declaration) (declaration : Declaration) : Bool :=
  declared.any fun other => other.familyName = declaration.familyName

/-- A declaration has a family if that is the family of one that is declared. -/
theorem hasFamily_iff :
    hasFamily declared declaration = true ↔
      ∃ other ∈ declared, other.familyName = declaration.familyName := by
  simp [hasFamily]

/-- All that is declared has a declared family. -/
theorem filter_hasFamily_self : declared.filter (hasFamily declared) = declared :=
  List.filter_eq_self.mpr fun declaration hmem => hasFamily_iff.mpr ⟨declaration, hmem, rfl⟩

/-- An applied definition stays in its family. -/
theorem familyName_of_close {definition closed : Declaration} {arguments : List TypeExpr}
    (h : definition.close arguments = .ok closed) : closed.familyName = definition.familyName := by
  obtain ⟨parameters, _, _, rfl⟩ := Declaration.close_eq_ok_iff.mp h
  have hname : ∀ c ∈ definition.familyName.toList, c ≠ '<' := by
    intro c hc
    rw [Declaration.familyName, Text.before, String.toList_ofList] at hc
    have hbefore := List.mem_takeWhile_imp hc
    exact of_decide_eq_true hbefore
  have hwritten : (definition.closedName arguments).toList = definition.familyName.toList ++
      '<' :: (String.intercalate ", " (arguments.map TypeExpr.display) ++ ">").toList := by
    simp [Declaration.closedName, Text.angled]
  rw [← String.toList_inj, Declaration.familyName, Declaration.closeOver,
    Text.toList_before_append hwritten hname]
  simp

/-! ## Types that name no foreign family -/

/-- A type that can be written and names no family that is declared elsewhere. -/
structure NamesNone (foreign : List Declaration) (t : TypeExpr) : Prop where
  wellFormed : t.WellFormed
  names : ∀ name ∈ t.names, ∀ other ∈ foreign, other.familyName ≠ name

/-- What is grown from declarations that name no foreign family names none. -/
theorem Grown.namesNone (h : Grown declared declaration)
    (hdeclared : ∀ entry ∈ declared, ∀ t ∈ entry.interfaces, NamesNone foreign t) :
    ∀ t ∈ declaration.interfaces, NamesNone foreign t := by
  have hwellFormed := h.wellFormed fun entry hentry t ht => (hdeclared entry hentry t ht).wellFormed
  refine fun t ht => ⟨hwellFormed t ht, ?_⟩
  clear hwellFormed
  induction h generalizing t with
  | given hmem => exact (hdeclared _ hmem t ht).names
  | @closed mentioning closed s _ hmention happlies ih =>
      obtain ⟨definition, hdefinition, _, _, hclose⟩ := happlies.applied
      obtain ⟨parameters, _, _, rfl⟩ := Declaration.close_eq_ok_iff.mp hclose
      obtain ⟨inner, hinner, rfl⟩ := List.mem_map.mp ht
      intro name hname
      -- A name stems from the definition, or from an argument of what is mentioned.
      rcases TypeExpr.mem_names_substitute hname with hold | ⟨argument, hargument, hnew⟩
      · exact (hdeclared definition hdefinition inner hinner).names name hold
      · exact ih s (mem_mentionedBy_iff.mp hmention).2.1 name
          (TypeExpr.names_subset_of_mem hargument hnew)

/-- Family names without marks and brackets. -/
def PlainFamilies (foreign : List Declaration) : Prop :=
  ∀ other ∈ foreign, ∀ c ∈ ['?', '*', '[', '('], c ∉ other.familyName.toList

/-- No declaration of a foreign family is called like a type that names none of these families. -/
theorem NamesNone.fullName_ne (h : NamesNone foreign t) (hplain : PlainFamilies foreign)
    (hfamily : hasFamily foreign declaration = true) : declaration.fullName ≠ t.display := by
  intro hname
  obtain ⟨other, hother, hsame⟩ := hasFamily_iff.mp hfamily
  have hbefore : Text.before '<' t.display = other.familyName := by
    rw [hsame, Declaration.familyName, hname]
  have hhead := h.wellFormed.before_display (by rw [hbefore]; exact hplain other hother)
  exact h.names t.head t.head_mem_names other hother (hbefore.symm.trans hhead)

/-! ## A search among others -/

/-- Declarations among others whose families are apart from theirs. -/
structure Among (declared foreign whole : List Declaration) : Prop where
  /-- Only what is declared has a name that no foreign family has. -/
  definitions : ∀ name, (∀ other ∈ foreign, other.familyName ≠ name) →
    (whole.filter fun entry => entry.familyName = name) =
      declared.filter fun entry => entry.familyName = name
  plain : PlainFamilies foreign

/-- Among others the same definition is meant. -/
theorem Among.definitionFor_eq (h : Among declared foreign whole) (ht : NamesNone foreign t) :
    definitionFor whole t = definitionFor declared t := by
  rw [definitionFor, definitionFor, h.definitions t.head (ht.names t.head t.head_mem_names)]

/-- What is known consists of declared families and of foreign ones. -/
def Mixed (declared foreign known : List Declaration) : Prop :=
  ∀ declaration ∈ known,
    hasFamily declared declaration = true ∨ hasFamily foreign declaration = true

/-- Behind what is known, more of the declared families is known. -/
theorem Mixed.append {added : List Declaration} (h : Mixed declared foreign known)
    (hadded : ∀ declaration ∈ added, hasFamily declared declaration = true) :
    Mixed declared foreign (known ++ added) := by
  intro declaration hmem
  rcases List.mem_append.mp hmem with hknown | hnew
  · exact h declaration hknown
  · exact Or.inl (hadded declaration hnew)

/-- A mention among others adds what it adds alone. -/
theorem Among.addMentioned (h : Among declared foreign whole)
    (hmixed : Mixed declared foreign known)
    (ht : NamesNone foreign t)
    (hmore : addMentioned declared (known.filter (hasFamily declared)) t = .ok more) :
    ∃ added, more = known.filter (hasFamily declared) ++ added ∧
      TypeGraph.addMentioned whole known t = .ok (known ++ added) ∧
      ∀ declaration ∈ added, hasFamily declared declaration = true := by
  have hsame : (known.any fun other => other.fullName = t.display) =
      (known.filter (hasFamily declared)).any fun other => other.fullName = t.display := by
    rw [List.any_filter, Bool.eq_iff_iff, List.any_eq_true, List.any_eq_true]
    refine exists_congr fun other => and_congr_right fun hother => ?_
    rcases hmixed other hother with hown | hforeign
    · simp [hown]
    · simp [ht.fullName_ne h.plain hforeign]
  unfold TypeGraph.addMentioned at hmore ⊢
  rw [hsame]
  split at hmore
  · rename_i hknown
    cases hmore
    rw [if_pos hknown]
    exact ⟨[], by simp, by simp, fun _ hmem => absurd hmem List.not_mem_nil⟩
  · rename_i hnew
    rw [if_neg hnew, h.definitionFor_eq ht]
    obtain ⟨definition, hdefinition, hmore⟩ := bind_eq_ok_iff.mp hmore
    rw [hdefinition]
    cases definition with
    | none =>
        cases hmore
        exact ⟨[], by simp, by simp [bind, Except.bind], fun _ hmem => absurd hmem List.not_mem_nil⟩
    | some definition =>
        obtain ⟨closed, hclosed, hadd⟩ := bind_eq_ok_iff.mp hmore
        obtain ⟨hmem, _, _⟩ := cases_of_definitionFor hdefinition
        have hfamily : hasFamily declared closed = true := hasFamily_iff.mpr
          ⟨definition, hmem, (familyName_of_close (mapError_eq_ok_iff.mp hclosed)).symm⟩
        obtain ⟨hdistinct, rfl⟩ := addDeclaration_eq_ok_iff.mp hadd
        refine ⟨[closed], rfl, ?_, by simpa using hfamily⟩
        show ((definition.close t.arguments).mapError BuildError.notClosable >>= _) = _
        rw [hclosed]
        refine addDeclaration_eq_ok_iff.mpr ⟨fun other hother hname => ?_, rfl⟩
        -- A declaration of one name has one family, so it is known to the search alone.
        have hother' : hasFamily declared other = true := by
          rw [hasFamily_iff, Declaration.familyName, hname]
          exact hasFamily_iff.mp hfamily
        exact hdistinct other (List.mem_filter.mpr ⟨hother, hother'⟩) hname

/-- Several mentions among others add what they add alone. -/
theorem Among.foldlM_addMentioned (h : Among declared foreign whole)
    (hmixed : Mixed declared foreign known) (hts : ∀ t ∈ ts, NamesNone foreign t)
    (hmore : ts.foldlM (TypeGraph.addMentioned declared) (known.filter (hasFamily declared)) =
      .ok more) :
    ∃ added, more = known.filter (hasFamily declared) ++ added ∧
      ts.foldlM (TypeGraph.addMentioned whole) known = .ok (known ++ added) ∧
      ∀ declaration ∈ added, hasFamily declared declaration = true := by
  induction ts generalizing known with
  | nil =>
      cases hmore
      exact ⟨[], by simp, by simp [pure, Except.pure], fun _ hmem => absurd hmem List.not_mem_nil⟩
  | cons t ts ih =>
      rw [List.foldlM_cons] at hmore ⊢
      obtain ⟨next, hnext, hrest⟩ := bind_eq_ok_iff.mp hmore
      obtain ⟨added, rfl, hadd, hadded⟩ := h.addMentioned hmixed (hts t List.mem_cons_self) hnext
      have hown : (known ++ added).filter (hasFamily declared) =
          known.filter (hasFamily declared) ++ added := by
        rw [List.filter_append, List.filter_eq_self.mpr hadded]
      rw [← hown] at hrest
      obtain ⟨later, rfl, hfold, hlater⟩ :=
        ih (hmixed.append hadded) (fun s hs => hts s (List.mem_cons_of_mem _ hs)) hrest
      refine ⟨added ++ later, by rw [hown, List.append_assoc], ?_, ?_⟩
      · rw [hadd, ← List.append_assoc]
        exact hfold
      · exact fun declaration hmem =>
          (List.mem_append.mp hmem).elim (hadded declaration) (hlater declaration)

/-! ## Searches side by side -/

/-- A search that has come to the end of what is known is over. -/
theorem addAllMentioned_length (declared known : List Declaration) (limit : Nat) :
    addAllMentioned declared limit known known.length = .ok known := by
  unfold addAllMentioned
  rw [List.getElem?_eq_none (Nat.le_refl _)]

/-- A search goes on behind the first of the declarations that are pending. -/
theorem addAllMentioned_append_cons (declared done pending : List Declaration)
    (declaration : Declaration) (limit : Nat) :
    addAllMentioned declared (limit + 1) (done ++ declaration :: pending) done.length =
      (mentionedBy declaration).foldlM (addMentioned declared) (done ++ declaration :: pending) >>=
        fun more => addAllMentioned declared limit more (done.length + 1) := by
  conv_lhs => unfold addAllMentioned
  rw [List.getElem?_append_right (Nat.le_refl _), Nat.sub_self, List.getElem?_cons_zero]

/-- A search only adds. -/
theorem prefix_of_addAllMentioned {limit next : Nat}
    (h : addAllMentioned declared limit known next = .ok final) : known <+: final := by
  have hmention : ∀ {known more : List Declaration} {t : TypeExpr},
      addMentioned declared known t = .ok more → known <+: more := by
    intro known more t hmore
    unfold addMentioned at hmore
    split at hmore
    · cases hmore
      exact List.prefix_rfl
    · obtain ⟨definition, _, hmore⟩ := bind_eq_ok_iff.mp hmore
      cases definition with
      | none =>
          cases hmore
          exact List.prefix_rfl
      | some definition =>
          obtain ⟨closed, _, hadd⟩ := bind_eq_ok_iff.mp hmore
          obtain ⟨_, rfl⟩ := addDeclaration_eq_ok_iff.mp hadd
          exact List.prefix_append _ _
  obtain ⟨_, hfinal, _⟩ := addAllMentioned_induction
    (fun reached _ => known <+: reached)
    (fun _ _ _ _ hreached _ hmore => foldlM_invariant
      (fun _ _ _ hstate hadd => hstate.trans (hmention hadd)) hreached hmore) List.prefix_rfl h
  exact hfinal

/-- The part of a search among others that is a search through the declared families alone, which
comes to its end. -/
structure Alone (declared foreign whole done pending : List Declaration) (limit : Nat)
    (final : List Declaration) : Prop where
  among : Among declared foreign whole
  search : addAllMentioned declared limit ((done ++ pending).filter (hasFamily declared))
    (done.filter (hasFamily declared)).length = .ok final
  names : ∀ declaration ∈ final, ∀ t ∈ declaration.interfaces, NamesNone foreign t

/-- A declaration of a declared family is searched as it is alone. -/
theorem Alone.step {limit : Nat}
    (h : Alone declared foreign whole done (declaration :: pending) limit final)
    (hmixed : Mixed declared foreign (done ++ declaration :: pending))
    (hown : hasFamily declared declaration = true) :
    ∃ less added, less < limit ∧ (∀ entry ∈ added, hasFamily declared entry = true) ∧
      (mentionedBy declaration).foldlM (addMentioned whole) (done ++ declaration :: pending) =
        .ok (done ++ declaration :: pending ++ added) ∧
      Alone declared foreign whole (done ++ [declaration]) (pending ++ added) less final := by
  have hfilter : (done ++ declaration :: pending).filter (hasFamily declared) =
      done.filter (hasFamily declared) ++ declaration :: pending.filter (hasFamily declared) := by
    rw [List.filter_append, List.filter_cons_of_pos hown]
  have hsearch := h.search
  have hknown : declaration ∈ final := by
    refine (prefix_of_addAllMentioned hsearch).subset (List.mem_filter.mpr ⟨?_, hown⟩)
    exact List.mem_append_right _ List.mem_cons_self
  cases limit with
  | zero =>
      rw [hfilter] at hsearch
      unfold addAllMentioned at hsearch
      rw [List.getElem?_append_right (Nat.le_refl _), Nat.sub_self] at hsearch
      cases hsearch
  | succ less =>
      rw [hfilter, addAllMentioned_append_cons] at hsearch
      obtain ⟨more, hmore, hrest⟩ := bind_eq_ok_iff.mp hsearch
      rw [← hfilter] at hmore
      obtain ⟨added, rfl, hfold, hadded⟩ := h.among.foldlM_addMentioned hmixed
        (fun t ht => h.names declaration hknown t (mem_mentionedBy_iff.mp ht).2.1) hmore
      refine ⟨less, added, Nat.lt_succ_self _, hadded, hfold, h.among, ?_, h.names⟩
      have hnext : ((done ++ [declaration]) ++ (pending ++ added)).filter (hasFamily declared) =
          (done ++ declaration :: pending).filter (hasFamily declared) ++ added := by
        simp [hown, List.filter_eq_self.mpr hadded]
      rw [hnext]
      simpa [hown] using hrest

/-- A search alone has nothing to do where foreign families are searched. -/
theorem Alone.idle {limit : Nat} {added : List Declaration}
    (h : Alone declared foreign whole done (declaration :: pending) limit final)
    (hforeign : hasFamily declared declaration = false)
    (hadded : ∀ entry ∈ added, hasFamily declared entry = false) :
    Alone declared foreign whole (done ++ [declaration]) (pending ++ added) limit final := by
  have hnone : added.filter (hasFamily declared) = [] :=
    List.filter_eq_nil_iff.mpr fun entry hentry => by simp [hadded entry hentry]
  refine ⟨h.among, ?_, h.names⟩
  simpa [hforeign, hnone] using h.search

/-- A search comes to its end as soon as it may search all that is known then. -/
structure Reaches (whole done pending final : List Declaration) : Prop where
  known_prefix : done ++ pending <+: final
  search : ∀ limit, final.length ≤ limit + done.length →
    addAllMentioned whole limit (done ++ pending) done.length = .ok final

/-- A search that comes to its end behind a declaration comes to its end in front of it. -/
theorem Reaches.cons {added : List Declaration}
    (h : Reaches whole (done ++ [declaration]) (pending ++ added) final)
    (hfold :
      (mentionedBy declaration).foldlM (addMentioned whole) (done ++ declaration :: pending) =
      .ok (done ++ declaration :: pending ++ added)) :
    Reaches whole done (declaration :: pending) final := by
  have hknown : done ++ [declaration] ++ (pending ++ added) =
      done ++ declaration :: pending ++ added := by simp
  have hprefix := hknown ▸ h.known_prefix
  refine ⟨(List.prefix_append _ _).trans hprefix, fun limit hlimit => ?_⟩
  have hlength := hprefix.length_le
  rw [List.length_append, List.length_append, List.length_cons] at hlength
  obtain ⟨less, rfl⟩ : ∃ less, limit = less + 1 := ⟨limit - 1, by omega⟩
  have hrest := h.search less (by rw [List.length_append, List.length_singleton]; omega)
  rw [hknown, List.length_append, List.length_singleton] at hrest
  rw [addAllMentioned_append_cons, hfold]
  exact hrest

variable {first second finalFirst finalSecond : List Declaration}

/-- Where two searches that have nothing in common come to their ends, the search through both comes
to the end, and what is known then is a shuffle of what is known in the two. -/
theorem exists_reaches (hdisjoint : ∀ declaration, hasFamily first declaration = true →
      hasFamily second declaration = false)
    (hmixed : Mixed first second (done ++ pending)) {limitFirst limitSecond : Nat}
    (hfirst : Alone first second whole done pending limitFirst finalFirst)
    (hsecond : Alone second first whole done pending limitSecond finalSecond) :
    ∃ final, Reaches whole done pending final ∧ Mixed first second final ∧
      final.filter (hasFamily first) = finalFirst ∧
      final.filter (hasFamily second) = finalSecond := by
  have hdisjoint' : ∀ declaration, hasFamily second declaration = true →
      hasFamily first declaration = false := by
    intro declaration hsecond
    by_contra hother
    rw [Bool.not_eq_false] at hother
    rw [hdisjoint declaration hother] at hsecond
    cases hsecond
  -- Each step is one of the two searches, of which one may search less afterwards.
  induction hlimits : limitFirst + limitSecond using Nat.strongRecOn
    generalizing done pending limitFirst limitSecond with
  | ind limits ih =>
      cases pending with
      | nil =>
          rw [List.append_nil] at hmixed
          refine ⟨done, ⟨by simp, ?_⟩, hmixed, ?_, ?_⟩
          · intro limit _
            rw [List.append_nil]
            exact addAllMentioned_length whole done limit
          · have hend := hfirst.search
            rw [List.append_nil, addAllMentioned_length] at hend
            exact Except.ok.inj hend
          · have hend := hsecond.search
            rw [List.append_nil, addAllMentioned_length] at hend
            exact Except.ok.inj hend
      | cons declaration pending =>
          have hnext : ∀ {added}, done ++ declaration :: pending ++ added =
              done ++ [declaration] ++ (pending ++ added) := by simp
          rcases hmixed declaration (List.mem_append_right _ List.mem_cons_self) with hown | hown
          · obtain ⟨less, added, hless, hadded, hfold, hfirst⟩ := hfirst.step hmixed hown
            have hsecond := hsecond.idle (hdisjoint _ hown)
              fun entry hentry => hdisjoint _ (hadded entry hentry)
            obtain ⟨final, hreaches, hfinal⟩ := ih _ (by omega)
              (hnext ▸ hmixed.append hadded) hfirst hsecond rfl
            exact ⟨final, hreaches.cons hfold, hfinal⟩
          · have hswapped : Mixed second first (done ++ declaration :: pending) :=
              fun entry hentry => (hmixed entry hentry).symm
            obtain ⟨less, added, hless, hadded, hfold, hsecond⟩ := hsecond.step hswapped hown
            have hfirst := hfirst.idle (hdisjoint' _ hown)
              fun entry hentry => hdisjoint' _ (hadded entry hentry)
            have hmixedNext : Mixed first second (done ++ [declaration] ++ (pending ++ added)) :=
              hnext ▸ fun entry hentry => (hswapped.append hadded entry hentry).symm
            obtain ⟨final, hreaches, hfinal⟩ := ih _ (by omega) hmixedNext hfirst hsecond rfl
            exact ⟨final, hreaches.cons hfold, hfinal⟩

/-! ## Independent declarations -/

/-- Declarations that have nothing to do with each other. What encloses a type and what it applies
need not be asked for: where both lists can be built, these are types of the same list. -/
structure Independent (first second : List Declaration) : Prop where
  /-- No family of the second list is named in an extension list of the first one, at any depth. -/
  names : ∀ declaration ∈ first, ∀ t ∈ declaration.interfaces, ∀ name ∈ t.names,
    ∀ other ∈ second, other.familyName ≠ name
  /-- No family of the first list is named in an extension list of the second one, at any depth. -/
  otherNames : ∀ declaration ∈ second, ∀ t ∈ declaration.interfaces, ∀ name ∈ t.names,
    ∀ other ∈ first, other.familyName ≠ name
  families : ∀ declaration ∈ first, ∀ other ∈ second, declaration.familyName ≠ other.familyName
  namespaces : ∀ declaration ∈ first, ∀ other ∈ second,
    declaration.namespaceName ≠ other.namespaceName
  /-- No type is declared under a name with marks, or under that of a tuple. -/
  plain :
    ∀ declaration ∈ first ++ second, ∀ c ∈ ['?', '*', '[', '('], c ∉ declaration.fullName.toList

namespace Independent

/-- To be independent is mutual. -/
theorem symm (h : Independent first second) : Independent second first where
  names := h.otherNames
  otherNames := h.names
  families declaration hmem other hother := (h.families other hother declaration hmem).symm
  namespaces declaration hmem other hother := (h.namespaces other hother declaration hmem).symm
  plain declaration hmem := h.plain declaration
    (List.mem_append.mpr (List.mem_append.mp hmem).symm)

/-- No declaration has a family of both lists. -/
theorem disjoint (h : Independent first second) (declaration : Declaration)
    (hfirst : hasFamily first declaration = true) : hasFamily second declaration = false := by
  rw [← Bool.not_eq_true, hasFamily_iff]
  obtain ⟨own, hown, hname⟩ := hasFamily_iff.mp hfirst
  rintro ⟨other, hother, hsame⟩
  exact h.families own hown other hother (hname.trans hsame.symm)

/-- The families of the second list are written without marks and brackets. -/
theorem plainFamilies (h : Independent first second) : PlainFamilies second := by
  intro other hother c hc hmem
  exact h.plain other (List.mem_append_right _ hother) c hc (Text.mem_of_mem_before hmem)

/-- No type with a name of one family has that of the other. -/
theorem filter_eq_nil {name : String} (hname : ∀ other ∈ second, other.familyName ≠ name) :
    (second.filter fun entry => entry.familyName = name) = [] :=
  List.filter_eq_nil_iff.mpr fun other hother => by simpa using hname other hother

/-- The first list is among both. -/
theorem among (h : Independent first second) : Among first second (first ++ second) where
  definitions name hname := by
    rw [List.filter_append, filter_eq_nil hname, List.append_nil]
  plain := h.plainFamilies

/-- The second list is among both. -/
theorem otherAmong (h : Independent first second) : Among second first (first ++ second) where
  definitions name hname := by
    rw [List.filter_append, filter_eq_nil hname, List.nil_append]
  plain := h.symm.plainFamilies

/-- Both lists are a mixture of their families. -/
theorem mixed (first second : List Declaration) : Mixed first second (first ++ second) := by
  intro declaration hmem
  rcases List.mem_append.mp hmem with hfirst | hsecond
  · exact Or.inl (hasFamily_iff.mpr ⟨declaration, hfirst, rfl⟩)
  · exact Or.inr (hasFamily_iff.mpr ⟨declaration, hsecond, rfl⟩)

/-- No declaration of the second list has a family of the first one. -/
theorem filter_hasFamily_eq_nil (h : Independent first second) :
    second.filter (hasFamily first) = [] :=
  List.filter_eq_nil_iff.mpr fun declaration hmem => by
    simp [h.symm.disjoint declaration (hasFamily_iff.mpr ⟨declaration, hmem, rfl⟩)]

/-- Of both lists the first one has the families of the first one. -/
theorem filter_append (h : Independent first second) :
    (first ++ second).filter (hasFamily first) = first := by
  rw [List.filter_append, filter_hasFamily_self, h.filter_hasFamily_eq_nil, List.append_nil]

/-- Of both lists the second one has the families of the second one. -/
theorem filter_append_other (h : Independent first second) :
    (first ++ second).filter (hasFamily second) = second := by
  rw [List.filter_append, filter_hasFamily_self, h.symm.filter_hasFamily_eq_nil, List.nil_append]

end Independent

/-! ## The graph of both lists -/

/-- Declarations of distinct names are added one behind the other. -/
theorem foldlM_addDeclaration_of_distinct {given : List Declaration}
    (h : NamesDistinct (known ++ given)) :
    given.foldlM addDeclaration known = .ok (known ++ given) := by
  induction given generalizing known with
  | nil => rw [List.append_nil]; rfl
  | cons entry given ih =>
      have hnext : known ++ entry :: given = known ++ [entry] ++ given := by simp
      have hadd : addDeclaration known entry = .ok (known ++ [entry]) := by
        refine addDeclaration_eq_ok_iff.mpr ⟨fun other hother hname => ?_, rfl⟩
        rw [NamesDistinct, List.map_append, List.nodup_append] at h
        exact h.2.2 _ (List.mem_map_of_mem hother) _ (List.mem_map_of_mem List.mem_cons_self) hname
      rw [List.foldlM_cons, hadd, hnext]
      exact ih (hnext ▸ h)

/-- A name of a known declaration is found. -/
theorem exists_positionOf? {name : String}
    (h : ∃ declaration ∈ known, declaration.fullName = name) :
    ∃ id, positionOf? known name = some id := by
  obtain ⟨declaration, hmem, hname⟩ := h
  cases hfound : positionOf? known name with
  | some id => exact ⟨id, rfl⟩
  | none =>
      have hnone := List.findIdx?_eq_none_iff.mp hfound declaration hmem
      simp [hname] at hnone

/-- What is found among declarations is found among more of them. -/
theorem exists_positionOf?_of_subset {name : String} {id : TypeId} (hsubset : known ⊆ more)
    (h : positionOf? known name = some id) : ∃ position, positionOf? more name = some position := by
  obtain ⟨declaration, hdeclaration, hname⟩ := positionOf?_eq_some h
  exact exists_positionOf? ⟨declaration, hsubset (List.mem_of_getElem? hdeclaration), hname⟩

/-- A declaration that can be resolved among declarations can be resolved among more of them. -/
theorem exists_resolve_of_subset {id : TypeId} {node : TypeNode} (hsubset : known ⊆ more)
    (h : resolve known (declaration, id) = .ok node) (position : TypeId) :
    ∃ other, resolve more (declaration, position) = .ok other := by
  obtain ⟨_, hparent, hdefinition⟩ := resolve_eq_ok_iff.mp h
  have hmoreParent : ∃ parent, resolveParent more declaration = .ok parent := by
    unfold resolveParent at hparent ⊢
    split at hparent
    · exact ⟨none, rfl⟩
    · split at hparent
      · rename_i hfound
        obtain ⟨found, hmore⟩ := exists_positionOf?_of_subset hsubset hfound
        exact ⟨some found, by simp only [hmore]⟩
      · cases hparent
  have hmoreDefinition :
      ∃ definition, resolveDefinition more declaration position = .ok definition := by
    unfold resolveDefinition at hdefinition ⊢
    split at hdefinition
    · split at hdefinition
      · rename_i hfound
        obtain ⟨found, hmore⟩ := exists_positionOf?_of_subset hsubset hfound
        exact ⟨found, by simp only [hmore]⟩
      · cases hdefinition
    · exact ⟨position, rfl⟩
  obtain ⟨parent, hparent⟩ := hmoreParent
  obtain ⟨definition, hdefinition⟩ := hmoreDefinition
  exact ⟨⟨declaration, parent, definition⟩, resolve_eq_ok_iff.mpr ⟨rfl, hparent, hdefinition⟩⟩

/-- What is built from declarations can be resolved among more declarations. -/
theorem exists_resolve_of_build {limit : Nat} {given : List Declaration} {graph : TypeGraph}
    (h : buildWithin limit given = .ok graph) (hsubset : graph.declarations ⊆ more)
    (hmem : declaration ∈ graph.declarations) (position : TypeId) :
    ∃ node, resolve more (declaration, position) = .ok node := by
  obtain ⟨_, _, hresolved⟩ := declarations_of_build h
  obtain ⟨node, hnode, rfl⟩ := List.mem_map.mp hmem
  obtain ⟨id, hid⟩ := List.mem_iff_getElem?.mp hnode
  exact exists_resolve_of_subset hsubset (hresolved id node hid) position

/-- What is built from declarations whose extension lists name no foreign family names none. -/
theorem namesNone_of_build {limit : Nat} {given : List Declaration} {graph : TypeGraph}
    (h : buildWithin limit given = .ok graph)
    (hgiven : ∀ entry ∈ given, ∀ t ∈ entry.interfaces, NamesNone foreign t) :
    ∀ declaration ∈ graph.declarations, ∀ t ∈ declaration.interfaces, NamesNone foreign t := by
  obtain ⟨_, hsearch, _⟩ := declarations_of_build h
  have hsearched := (Searched.start given).of_addAllMentioned hsearch
  exact fun declaration hmem => (hsearched.grown declaration hmem).namesNone hgiven

/-- The graph of two lists together. -/
structure Joins (first second : List Declaration) (left right graph : TypeGraph) : Prop where
  given_prefix : first ++ second <+: graph.declarations
  mixed : Mixed first second graph.declarations
  left : graph.declarations.filter (hasFamily first) = left.declarations
  right : graph.declarations.filter (hasFamily second) = right.declarations
  build : ∀ limit, graph.size ≤ limit → buildWithin limit (first ++ second) = .ok graph

/-- The graph of two lists has as many types as the two graphs. -/
theorem Joins.size_eq {left right graph : TypeGraph} (h : Joins first second left right graph)
    (hdisjoint : ∀ declaration, hasFamily first declaration = true →
      hasFamily second declaration = false) : graph.size = left.size + right.size := by
  have hother : graph.declarations.filter (hasFamily second) =
      graph.declarations.filter fun declaration => !hasFamily first declaration := by
    refine List.filter_congr fun declaration hmem => ?_
    rcases h.mixed declaration hmem with hfirst | hsecond
    · simp [hfirst, hdisjoint declaration hfirst]
    · cases hfirst : hasFamily first declaration with
      | false => simp [hsecond]
      | true => simp [hdisjoint declaration hfirst] at hsecond
  have hsum := graph.declarations.length_eq_length_filter_add (hasFamily first)
  rw [← hother, h.left, h.right] at hsum
  simpa using hsum

/-- A search among others starts as a search through the declared families alone. -/
theorem Among.alone (h : Among declared foreign whole) {limit : Nat} {part : TypeGraph}
    (hown : whole.filter (hasFamily declared) = declared)
    (hdeclared : ∀ entry ∈ declared, ∀ t ∈ entry.interfaces, NamesNone foreign t)
    (hpart : buildWithin limit declared = .ok part) :
    Alone declared foreign whole [] whole limit part.declarations := by
  obtain ⟨_, hsearch, _⟩ := declarations_of_build hpart
  refine ⟨h, ?_, namesNone_of_build hpart hdeclared⟩
  rw [List.nil_append, hown]
  exact hsearch

/-- The names of independent declarations are distinct if those of each list are. -/
theorem Independent.namesDistinct (h : Independent first second) (hfirst : NamesDistinct first)
    (hsecond : NamesDistinct second) : NamesDistinct (first ++ second) := by
  rw [NamesDistinct, List.map_append]
  refine List.Nodup.append hfirst hsecond ?_
  intro name hname hother
  obtain ⟨declaration, hmem, rfl⟩ := List.mem_map.mp hname
  obtain ⟨other, hotherMem, hsame⟩ := List.mem_map.mp hother
  exact h.families declaration hmem other hotherMem (congrArg (Text.before '<') hsame.symm)

/-- Declarations that can be resolved one by one can be resolved together. -/
theorem exists_nodes (h : ∀ declaration ∈ final, ∀ position, ∃ node,
      resolve final (declaration, position) = .ok node) :
    ∃ nodes, final.zipIdx.mapM (resolve final) = .ok nodes := by
  cases hresult : final.zipIdx.mapM (resolve final) with
  | ok nodes => exact ⟨nodes, rfl⟩
  | error error =>
      obtain ⟨⟨declaration, position⟩, hentry, herror⟩ := exists_error_of_mapM hresult
      obtain ⟨node, hnode⟩ := h declaration (List.fst_mem_of_mem_zipIdx hentry) position
      rw [hnode] at herror
      cases herror

/-- Declarations of distinct names are built into what a search ends with. -/
theorem buildWithin_of_search {limit : Nat} {given : List Declaration} {nodes : List TypeNode}
    (hdistinct : NamesDistinct given) (hsearch : addAllMentioned given limit given 0 = .ok final)
    (hnodes : final.zipIdx.mapM (resolve final) = .ok nodes) :
    buildWithin limit given = .ok ⟨nodes⟩ := by
  have hdeclared := @foldlM_addDeclaration_of_distinct [] given hdistinct
  rw [List.nil_append] at hdeclared
  exact bind_eq_ok_iff.mpr ⟨given, hdeclared, bind_eq_ok_iff.mpr ⟨final, hsearch,
    bind_eq_ok_iff.mpr ⟨nodes, hnodes, rfl⟩⟩⟩

/-- Independent declarations that can be built can be built together. -/
theorem exists_joins {left right : TypeGraph} (h : Independent first second)
    (hparsed : ∀ declaration ∈ first ++ second, ∀ t ∈ declaration.interfaces, t.WellFormed)
    {leftLimit rightLimit : Nat} (hleft : buildWithin leftLimit first = .ok left)
    (hright : buildWithin rightLimit second = .ok right) :
    ∃ graph, Joins first second left right graph := by
  obtain ⟨hparsedLeft, hparsedRight⟩ := List.forall_mem_append.mp hparsed
  have hleftAlone := h.among.alone h.filter_append
    (fun entry hentry t ht => ⟨hparsedLeft entry hentry t ht, h.names entry hentry t ht⟩) hleft
  have hrightAlone := h.otherAmong.alone h.filter_append_other
    (fun entry hentry t ht => ⟨hparsedRight entry hentry t ht, h.otherNames entry hentry t ht⟩)
    hright
  have hmixed : Mixed first second ([] ++ (first ++ second)) := Independent.mixed first second
  obtain ⟨final, hreaches, hmixed, hfilterLeft, hfilterRight⟩ :=
    exists_reaches h.disjoint hmixed hleftAlone hrightAlone
  have hsearch : ∀ limit, final.length ≤ limit →
      addAllMentioned (first ++ second) limit (first ++ second) 0 = .ok final := hreaches.search
  have hdistinct := h.namesDistinct (declarations_of_build hleft).1 (declarations_of_build hright).1
  -- What can be resolved in one of the two graphs can be resolved among both.
  obtain ⟨nodes, hnodes⟩ : ∃ nodes, final.zipIdx.mapM (resolve final) = .ok nodes := by
    refine exists_nodes fun declaration hmem position => ?_
    rcases hmixed declaration hmem with hown | hown
    · refine exists_resolve_of_build hleft (hfilterLeft ▸ List.filter_sublist.subset) ?_ position
      exact hfilterLeft ▸ List.mem_filter.mpr ⟨hmem, hown⟩
    · refine exists_resolve_of_build hright (hfilterRight ▸ List.filter_sublist.subset) ?_ position
      exact hfilterRight ▸ List.mem_filter.mpr ⟨hmem, hown⟩
  have hbuild : ∀ limit, final.length ≤ limit →
      buildWithin limit (first ++ second) = .ok ⟨nodes⟩ := fun limit hlimit =>
    buildWithin_of_search hdistinct (hsearch limit hlimit) hnodes
  have hsame : final = TypeGraph.declarations ⟨nodes⟩ := by
    obtain ⟨_, hsearched, _⟩ := declarations_of_build (hbuild final.length (Nat.le_refl _))
    exact Except.ok.inj ((hsearch final.length (Nat.le_refl _)).symm.trans hsearched)
  have hsize : TypeGraph.size ⟨nodes⟩ = final.length := by rw [hsame, length_declarations]
  subst hsame
  exact ⟨⟨nodes⟩, hreaches.known_prefix, hmixed, hfilterLeft, hfilterRight, hsize ▸ hbuild⟩

end RadioBroker.TypeGraph
