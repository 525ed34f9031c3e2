import RadioBroker.Proofs.TypeExpr.Renaming

/-!
# Laws of substitution

Arguments in place of parameters, and other arguments in place of what these mention, are arguments
in place of parameters once. A definition over parameters of another definition can therefore be
applied at once or step by step.
-/

namespace RadioBroker.TypeExpr

mutual

/-- The names that stand without arguments in a type, at any depth. Only these are replaced. -/
def bareNames : TypeExpr → List String
  | ⟨head, [], _⟩ => [head]
  | ⟨_, first :: others, _⟩ => bareNamesIn (first :: others)

/-- The names that stand without arguments in several types, at any depth. -/
def bareNamesIn : List TypeExpr → List String
  | [] => []
  | t :: ts => bareNames t ++ bareNamesIn ts

end

@[simp] theorem bareNamesIn_eq_flatMap (ts : List TypeExpr) :
    bareNamesIn ts = ts.flatMap bareNames := by
  induction ts with
  | nil => rfl
  | cons t ts ih => simp [bareNamesIn, ih]

variable {parameters later : List String} {arguments replacements : List TypeExpr}

/-- Marks stay behind what replaces the type in front of them. -/
theorem substitute_withSuffix (t : TypeExpr) (marks : String) :
    (t.withSuffix marks).substitute parameters arguments =
      (t.substitute parameters arguments).withSuffix marks := by
  obtain ⟨head, inner, suffix⟩ := t
  cases inner with
  | nil => rw [substitute, withSuffix_withSuffix, withSuffix, substitute]
  | cons first others => rw [substitute, withSuffix, substitute, withSuffix]

/-- Changed arguments are found where the arguments are. -/
theorem argumentFor_map_arguments (change : TypeExpr → TypeExpr) (name : String) :
    argumentFor name parameters (arguments.map change) =
      (argumentFor name parameters arguments).map change := by
  fun_induction argumentFor name parameters arguments with
  | case1 parameters arguments argument =>
    rw [List.map_cons, argumentFor, if_pos rfl, Option.map_some]
  | case2 parameter parameters argument arguments hne ih =>
      rw [List.map_cons, argumentFor, if_neg hne, ih]
  | case3 parameters arguments hnone =>
      cases parameters with
      | nil => rfl
      | cons parameter parameters =>
          cases arguments with
          | nil => rfl
          | cons argument arguments =>
              exact absurd rfl (hnone parameter parameters argument arguments rfl)

/-- Two substitutions, one after the other, are one. What stands in the type itself must not be a
parameter of the second one alone. -/
theorem substitute_substitute {t : TypeExpr} (hlength : parameters.length = arguments.length)
    (h : ∀ name ∈ t.bareNames, name ∉ parameters → name ∉ later) :
    (t.substitute parameters arguments).substitute later replacements =
      t.substitute parameters (arguments.map (substitute later replacements)) := by
  induction t using TypeExpr.rec (motive_2 := fun ts =>
      (∀ name ∈ ts.flatMap bareNames, name ∉ parameters → name ∉ later) →
        (ts.map (substitute parameters arguments)).map (substitute later replacements) =
          ts.map (substitute parameters (arguments.map (substitute later replacements)))) with
  | mk head inner suffix ih =>
      cases inner with
      | nil =>
          rw [substitute, substitute_withSuffix, substitute, argumentFor_map_arguments]
          by_cases hhead : head ∈ parameters
          · obtain ⟨argument, hargument⟩ := exists_argumentFor hhead hlength
            rw [hargument, Option.map_some, Option.getD_some, Option.getD_some]
          · -- The name is no parameter and is not replaced later either.
            have hlater : head ∉ later := h head List.mem_cons_self hhead
            rw [argumentFor_of_notMem hhead, Option.map_none, Option.getD_none, named, substitute,
              argumentFor_of_notMem hlater, Option.getD_none, withSuffix_empty, named]
      | cons first others =>
          rw [bareNames, bareNamesIn_eq_flatMap] at h
          have hinner := ih h
          rw [List.map_cons, List.map_cons] at hinner
          rw [substitute, substituteList_eq_map, List.map_cons, substitute, substituteList_eq_map,
            List.map_cons, hinner, substitute, substituteList_eq_map]
  | nil => rfl
  | cons t ts ht hts =>
      rename_i hall
      rw [List.flatMap_cons] at hall
      obtain ⟨hfirst, hrest⟩ := List.forall_mem_append.mp hall
      rw [List.map_cons, List.map_cons, List.map_cons, ht hfirst, hts hrest]

/-- The laws of substitution: parameters in their own place change nothing, two substitutions one
after the other are one, and a return type with a dispatch kind keeps it, with the type of its
single values substituted. -/
theorem substitution_lawful (t : TypeExpr) (hlength : parameters.length = arguments.length) :
    t.substitute parameters (parameters.map named) = t ∧
      (∀ (later : List String) (replacements : List TypeExpr),
        (∀ name ∈ t.bareNames, name ∉ parameters → name ∉ later) →
          (t.substitute parameters arguments).substitute later replacements =
            t.substitute parameters (arguments.map (substitute later replacements))) ∧
      ("void" ∉ parameters → taskName ∉ parameters → t.classify.kind ≠ .other →
        (t.substitute parameters arguments).classify.kind = t.classify.kind ∧
          (t.substitute parameters arguments).classify.result =
            t.classify.result.map (substitute parameters arguments)) := by
  refine ⟨renamed_id t, fun later replacements => substitute_substitute hlength, ?_⟩
  intro hvoid htask hkind
  rw [classify_substitute hvoid htask hkind]
  exact ⟨rfl, rfl⟩

/-- A task of results that mentions the parameter `T` by itself, with marks, and as the name of a
type with arguments. -/
def pairTask : TypeExpr :=
  ⟨taskName, [⟨radioResultName,
    [⟨"N.Pair", [⟨"T", [], "[]"⟩, ⟨"T", [⟨"V", [], ""⟩], "?"⟩], "[,]"⟩], ""⟩], ""⟩

/-- The first of two parameters called `T` counts, and what it mentions is replaced later. -/
theorem substitution_lawful_pairTask :
    pairTask.substitute ["T", "V", "T"] (["T", "V", "T"].map named) = pairTask ∧
      (pairTask.substitute ["T", "V", "T"]
          [⟨"N.Box", [⟨"U", [], ""⟩], "?"⟩, named "int", named "long"]).substitute ["U", "T"]
          [⟨"string", [], "[]"⟩, named "byte"] =
        ⟨taskName, [⟨radioResultName,
          [⟨"N.Pair", [⟨"N.Box", [⟨"string", [], "[]"⟩], "?[]"⟩, ⟨"T", [named "int"], "?"⟩],
            "[,]"⟩],
          ""⟩], ""⟩ ∧
      (pairTask.substitute ["T", "V", "T"]
          [⟨"N.Box", [⟨"U", [], ""⟩], "?"⟩, named "int", named "long"]).classify.kind =
        .asyncSingleResult := by
  obtain ⟨hself, htwice, hkind⟩ := substitution_lawful pairTask
    (show ["T", "V", "T"].length =
      [⟨"N.Box", [⟨"U", [], ""⟩], "?"⟩, named "int", named "long"].length from rfl)
  refine ⟨hself, ?_, ?_⟩
  · rw [htwice ["U", "T"] [⟨"string", [], "[]"⟩, named "byte"] (by decide)]
    decide
  · rw [(hkind (by decide) (by decide) (by decide)).1]
    decide

end RadioBroker.TypeExpr
