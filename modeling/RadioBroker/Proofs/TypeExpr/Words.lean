import RadioBroker.Proofs.TypeExpr.Names

/-!
# Words in types

A tuple is one head, and names stand in it as words. What is mentioned in a type are its heads and
the words in them, at any depth. A type that mentions no parameter is left alone by arguments in
place of the parameters.
-/

namespace RadioBroker.TypeExpr

/-- The words of a text are its longest runs of name characters. -/
def words (cs : List Char) : List (List Char) :=
  (cs.splitOnP fun c => !isNameChar c).filter (· ≠ [])

/-- A character that no name has separates words. -/
theorem words_append_cons {front rest : List Char} {c : Char} (hc : isNameChar c = false) :
    words (front ++ c :: rest) = words front ++ words rest := by
  rw [words, List.splitOnP_append_cons front rest (by simp [hc]), List.filter_append]
  rfl

/-- Name characters are one word. -/
theorem words_of_forall {cs : List Char} (hne : cs ≠ [])
    (hcs : ∀ c ∈ cs, isNameChar c = true) : words cs = [cs] := by
  have hwhole : (cs.splitOnP fun c => !isNameChar c) = [cs] :=
    List.splitOnP_eq_singleton fun c hc => by simp [hcs c hc]
  simp [words, hwhole, hne]

/-- A name is mentioned in a type: it is a head in it, or a word in a head. -/
def Mentions (name : String) (t : TypeExpr) : Prop :=
  ∃ head ∈ t.names, head = name ∨ name.toList ∈ words head.toList

instance (name : String) (t : TypeExpr) : Decidable (Mentions name t) :=
  inferInstanceAs (Decidable (∃ head ∈ t.names, head = name ∨ name.toList ∈ words head.toList))

/-- No parameter is mentioned in a type. -/
def Free (parameters : List String) (t : TypeExpr) : Prop :=
  ∀ parameter ∈ parameters, ¬ Mentions parameter t

instance (parameters : List String) (t : TypeExpr) : Decidable (Free parameters t) :=
  inferInstanceAs (Decidable (∀ parameter ∈ parameters, ¬ Mentions parameter t))

/-- What stands in a tuple is mentioned, at any depth. -/
example : Mentions "T" ⟨"N.Box", [⟨"(int, N.Cell<T>)", [], "[]"⟩], ""⟩ ∧
    Free ["T"] ⟨"N.Box", [⟨"(int, N.T)", [], "?"⟩], ""⟩ := by decide +kernel

variable {parameters : List String} {arguments : List TypeExpr} {name : String} {t : TypeExpr}

/-- No name in a type is a parameter that it does not mention. -/
theorem Free.notMem (h : t.Free parameters) (hname : name ∈ t.names) : name ∉ parameters :=
  fun hmem => h name hmem ⟨name, hname, Or.inl rfl⟩

/-- A type that mentions no parameter has arguments that mention none. -/
theorem Free.of_mem {argument : TypeExpr} (h : t.Free parameters)
    (hargument : argument ∈ t.arguments) : argument.Free parameters := by
  intro parameter hparameter hmentions
  obtain ⟨head, hhead, hword⟩ := hmentions
  exact h parameter hparameter ⟨head, names_subset_of_mem hargument hhead, hword⟩

/-- What has no parameters for names is not changed by arguments in place of parameters. -/
theorem substitute_eq_self (h : ∀ name ∈ t.names, name ∉ parameters) :
    t.substitute parameters arguments = t := by
  induction t using TypeExpr.rec (motive_2 := fun ts =>
    (∀ name ∈ ts.flatMap names, name ∉ parameters) →
      ts.map (substitute parameters arguments) = ts) with
  | mk head inner suffix ih =>
      obtain ⟨hhead, hinner⟩ := List.forall_mem_cons.mp h
      cases inner with
      | nil => simp [substitute, argumentFor_of_notMem hhead, named, withSuffix]
      | cons first others =>
          rw [namesIn_eq_flatMap] at hinner
          rw [substitute, substituteList_eq_map, ih hinner]
  | nil => rfl
  | cons t ts ht hts =>
      rename_i hall
      rw [List.flatMap_cons] at hall
      obtain ⟨hfirst, hrest⟩ := List.forall_mem_append.mp hall
      rw [List.map_cons, ht hfirst, hts hrest]

/-- A type that mentions no parameter is left alone. -/
theorem Free.substitute_eq (h : t.Free parameters) : t.substitute parameters arguments = t :=
  substitute_eq_self fun _ hname => h.notMem hname

/-- The arguments of a type whose head is no parameter stay in their places. -/
theorem arguments_substitute (h : t.head ∉ parameters) :
    (t.substitute parameters arguments).arguments =
      t.arguments.map (substitute parameters arguments) := by
  obtain ⟨head, inner, suffix⟩ := t
  cases inner with
  | nil => simp [substitute, argumentFor_of_notMem h, named, withSuffix]
  | cons first others => simp [substitute]

end RadioBroker.TypeExpr
