import RadioBroker.Dispatch.Kind
import RadioBroker.Proofs.TypeExpr.Shape
import RadioBroker.TypeExpr.Substitution

/-!
# Types with arguments in place of parameters

Arguments in place of parameters leave a type well formed. A return type keeps its dispatch kind, as
long as no parameter is called like a type that the classification knows.
-/

namespace RadioBroker.TypeExpr

variable {parameters : List String} {arguments : List TypeExpr}

/-- What is called like no parameter is not replaced. -/
theorem argumentFor_of_notMem {name : String} (h : name ∉ parameters) :
    argumentFor name parameters arguments = none := by
  fun_induction argumentFor name parameters arguments with
  | case1 parameters arguments argument => exact absurd List.mem_cons_self h
  | case2 parameter parameters argument arguments hne ih =>
      exact ih fun hmem => h (List.mem_cons_of_mem _ hmem)
  | case3 => rfl

/-- What stands for a parameter is an argument. -/
theorem mem_of_argumentFor {name : String} {argument : TypeExpr}
    (h : argumentFor name parameters arguments = some argument) :
    argument ∈ arguments := by
  fun_induction argumentFor name parameters arguments with
  | case1 => exact Option.some.inj h ▸ List.mem_cons_self
  | case2 _ _ _ _ _ ih => exact List.mem_cons_of_mem _ (ih h)
  | case3 => cases h

/-! ## Well-formed types -/

/-- More marks behind marks are marks. -/
theorem IsMarks.append {marks more : List Char} (h : IsMarks marks) (hmore : IsMarks more) :
    IsMarks (marks ++ more) := by
  induction h with
  | nil => exact hmore
  | mark hmark _ ih => exact .mark hmark ih
  | rank commas _ ih => simpa using IsMarks.rank commas ih

/-- Marks behind a well-formed type. -/
theorem WellFormed.withSuffix {t : TypeExpr} (h : t.WellFormed) {marks : String}
    (hmarks : IsMarks marks.toList) : (t.withSuffix marks).WellFormed := by
  obtain ⟨hhead, harguments, hsuffix⟩ := h
  refine .mk hhead harguments ?_
  rw [String.toList_append]
  exact hsuffix.append hmarks

/-- Arguments in place of parameters leave a type well formed. -/
theorem WellFormed.substitute {t : TypeExpr} (h : t.WellFormed)
    (harguments : ∀ argument ∈ arguments, argument.WellFormed) :
    (t.substitute parameters arguments).WellFormed := by
  induction h with
  | @mk head suffix inner hhead hinner hsuffix ih =>
      cases inner with
      | nil =>
          rw [TypeExpr.substitute]
          refine WellFormed.withSuffix ?_ hsuffix
          cases hargument : argumentFor head parameters arguments with
          | none => exact .mk hhead (List.forall_mem_nil _) .nil
          | some argument => exact harguments argument (mem_of_argumentFor hargument)
      | cons first others =>
          rw [TypeExpr.substitute, substituteList_eq_map]
          refine .mk hhead ?_ hsuffix
          intro t ht
          obtain ⟨s, hs, rfl⟩ := List.mem_map.mp ht
          exact ih s hs

/-! ## Return types -/

/-- A type with another name than the parameters keeps its definition. -/
theorem substitute_of_isDefinition {t : TypeExpr} {name : String} {n : Nat}
    (h : t.isDefinition name n = true) (hname : name ∉ parameters ∨ 0 < n) :
    t.substitute parameters arguments =
      ⟨name, t.arguments.map (substitute parameters arguments), ""⟩ := by
  obtain ⟨hsuffix, harity, hhead⟩ := isDefinition_eq_true_iff.mp h
  obtain ⟨head, args, suffix⟩ := t
  simp only at hsuffix hhead
  subst hsuffix hhead
  cases args with
  | nil =>
      have hnew : head ∉ parameters := by
        rcases hname with hnew | hpos
        · exact hnew
        · exact absurd harity (Nat.ne_of_lt hpos)
      simp [substitute, argumentFor_of_notMem hnew, named]
  | cons first others => simp [substitute]

/-- The value type of a result with arguments in place of parameters. -/
theorem resultOf?_substitute {t result : TypeExpr} (h : t.resultOf? = some result) :
    (t.substitute parameters arguments).resultOf? =
      some (result.substitute parameters arguments) := by
  unfold resultOf? at h
  split at h
  · rename_i hdefinition
    rw [substitute_of_isDefinition hdefinition (Or.inr Nat.one_pos)]
    obtain ⟨_, harity, _⟩ := isDefinition_eq_true_iff.mp hdefinition
    simp_all [resultOf?, isDefinition, arity]
  · cases h

/-- A type of results is no type without arguments. -/
theorem not_isDefinition_of_resultOf? {t result : TypeExpr} {name : String}
    (h : t.resultOf? = some result) : t.isDefinition name 0 = false := by
  unfold resultOf? at h
  split at h
  · rename_i hdefinition
    obtain ⟨_, harity, _⟩ := isDefinition_eq_true_iff.mp hdefinition
    simp [isDefinition, harity]
  · cases h

/-- A task is classified by what it yields. -/
theorem classify_pending (t : TypeExpr) :
    classify ⟨taskName, [t], ""⟩ =
      match t.resultOf? with
      | some result => ⟨.asyncSingleResult, some result⟩
      | none => ⟨.other, none⟩ := by
  have htask : resultOf? ⟨taskName, [t], ""⟩ = none := by
    simp [resultOf?, isDefinition, taskName, radioResultName]
  rw [classify, htask]
  cases hresult : t.resultOf? <;> simp [isDefinition, arity, hresult]

/-- A return type keeps its kind if `void` and the task types are no parameters. -/
theorem classify_substitute {t : TypeExpr} (hvoid : "void" ∉ parameters)
    (htask : taskName ∉ parameters) (h : t.classify.kind ≠ .other) :
    (t.substitute parameters arguments).classify =
      ⟨t.classify.kind, t.classify.result.map (substitute parameters arguments)⟩ := by
  by_cases hisVoid : t.isDefinition "void" 0 = true
  · rw [substitute_of_isDefinition hisVoid (Or.inl hvoid)]
    obtain ⟨_, harity, _⟩ := isDefinition_eq_true_iff.mp hisVoid
    simp_all [classify, isDefinition, arity]
  by_cases hisTask : t.isDefinition taskName 0 = true
  · rw [substitute_of_isDefinition hisTask (Or.inl htask)]
    obtain ⟨_, harity, _⟩ := isDefinition_eq_true_iff.mp hisTask
    simp_all [classify, isDefinition, arity, taskName]
  cases hresult : t.resultOf? with
  | some result =>
      have hclosed := @resultOf?_substitute parameters arguments t result hresult
      simp_all [classify, not_isDefinition_of_resultOf? hclosed]
  | none =>
      have hisPending : t.isDefinition taskName 1 = true := by
        by_contra hother
        simp_all [classify]
      obtain ⟨hsuffix, harity, hhead⟩ := isDefinition_eq_true_iff.mp hisPending
      obtain ⟨first, harguments⟩ := List.length_eq_one_iff.mp harity
      obtain ⟨head, args, suffix⟩ := t
      subst hsuffix hhead harguments
      cases hfirst : first.resultOf? with
      | some result =>
          simp [substitute, classify_pending, hfirst, resultOf?_substitute hfirst]
      | none => simp [classify_pending, hfirst] at h

end RadioBroker.TypeExpr
