import RadioBroker.Declaration.Basic
import RadioBroker.Proofs.TypeExpr.Names

/-!
# Types with other names for parameters

Giving the parameters of a definition other names is putting these names in the place of the
parameters. Where the new names are well formed, tell the parameters apart and are used nowhere
else, nothing is lost: arguments in place of the new names make of the renamed type what they made
of the type, and renamed types are written alike exactly if the types were. Tuples are heads of
their own and are renamed by no substitution, so a parameter that is named in a tuple stays there.
-/

namespace RadioBroker.TypeExpr

/-- The type with other names in the place of parameters. -/
def renamed (parameters : List String) (rename : String → String) (t : TypeExpr) : TypeExpr :=
  t.substitute parameters (parameters.map fun parameter => named (rename parameter))

/-- The new names of parameters are well formed and tell the parameters apart. -/
structure NewNames (parameters : List String) (rename : String → String) : Prop where
  injective : ∀ first ∈ parameters, ∀ second ∈ parameters, rename first = rename second →
    first = second
  wellFormed : ∀ parameter ∈ parameters, (named (rename parameter)).WellFormed

/-- None of the new names stands in a type. -/
def Unused (parameters : List String) (rename : String → String) (t : TypeExpr) : Prop :=
  ∀ parameter ∈ parameters, rename parameter ∉ t.names

instance (parameters : List String) (rename : String → String) (t : TypeExpr) :
    Decidable (Unused parameters rename t) :=
  inferInstanceAs (Decidable (∀ parameter ∈ parameters, rename parameter ∉ t.names))

variable {parameters : List String} {rename : String → String} {arguments : List TypeExpr}
  {name : String} {s t : TypeExpr}

/-! ## Names in the place of parameters -/

/-- What stands for a parameter is found at its place. -/
theorem argumentFor_map (image : String → TypeExpr) (name : String) (parameters : List String) :
    argumentFor name parameters (parameters.map image) =
      if name ∈ parameters then some (image name) else none := by
  induction parameters with
  | nil => rfl
  | cons parameter parameters ih =>
      rw [List.map_cons, argumentFor, ih]
      by_cases heq : parameter = name
      · simp [heq]
      · simp [heq, Ne.symm heq]

/-- A new name has the place of the parameter that it was given to. -/
theorem argumentFor_rename
    (hinjective : ∀ parameter ∈ parameters, rename parameter = rename name → parameter = name) :
    argumentFor (rename name) (parameters.map rename) arguments =
      argumentFor name parameters arguments := by
  induction parameters generalizing arguments with
  | nil => rfl
  | cons parameter parameters ih =>
      obtain ⟨hfirst, hrest⟩ := List.forall_mem_cons.mp hinjective
      cases arguments with
      | nil => rfl
      | cons argument arguments =>
          rw [List.map_cons, argumentFor, argumentFor, ih hrest]
          exact if_congr ⟨hfirst, congrArg rename⟩ rfl rfl

/-- Where there is an argument for each parameter, something stands for each of them. -/
theorem exists_argumentFor (hname : name ∈ parameters)
    (hlength : parameters.length = arguments.length) :
    ∃ argument, argumentFor name parameters arguments = some argument := by
  fun_induction argumentFor name parameters arguments with
  | case1 _ argument => exact ⟨argument, rfl⟩
  | case2 parameter parameters argument arguments hne ih =>
      exact ih (List.mem_of_ne_of_mem (Ne.symm hne) hname) (Nat.succ.inj hlength)
  | case3 parameters arguments hnone =>
      cases parameters with
      | nil => cases hname
      | cons parameter parameters =>
          cases arguments with
          | nil => cases hlength
          | cons argument arguments =>
            exact absurd rfl (hnone parameter parameters argument arguments rfl)

/-- A name is replaced if it stands alone and is a parameter. -/
theorem renamed_mk (head : String) (arguments : List TypeExpr) (suffix : String) :
    renamed parameters rename ⟨head, arguments, suffix⟩ =
      ⟨if arguments = [] ∧ head ∈ parameters then rename head else head,
        arguments.map (renamed parameters rename), suffix⟩ := by
  cases arguments with
  | nil =>
      rw [renamed, substitute, argumentFor_map fun parameter => named (rename parameter)]
      by_cases hhead : head ∈ parameters <;> simp [hhead, named, withSuffix]
  | cons first others =>
      simp only [renamed, substitute, substituteList_eq_map, reduceCtorEq, false_and, if_false]
      rfl

/-- Parameters that keep their names change nothing. -/
theorem renamed_id (t : TypeExpr) : renamed parameters (fun name => name) t = t := by
  induction t using TypeExpr.rec
    (motive_2 := fun ts => ts.map (renamed parameters fun name => name) = ts) with
  | mk head arguments suffix ih => rw [renamed_mk, ih, ite_self]
  | nil => rfl
  | cons t ts ht hts => rw [List.map_cons, ht, hts]

/-- No new name stands in the arguments of a type in which none stands. -/
theorem Unused.of_mem (h : Unused parameters rename t) (hs : s ∈ t.arguments) :
    Unused parameters rename s :=
  fun parameter hparameter hname => h parameter hparameter (names_subset_of_mem hs hname)

/-- A new name is not the head of a type in which none stands. -/
theorem Unused.head_ne (h : Unused parameters rename t) : t.head ∉ parameters.map rename := by
  intro hmem
  obtain ⟨parameter, hparameter, hhead⟩ := List.mem_map.mp hmem
  exact h parameter hparameter (hhead ▸ head_mem_names t)

/-- Arguments in place of the new names make of the renamed type what they make of the type. -/
theorem substitute_renamed (hnew : NewNames parameters rename)
    (hlength : parameters.length = arguments.length) (ht : Unused parameters rename t) :
    (t.renamed parameters rename).substitute (parameters.map rename) arguments =
      t.substitute parameters arguments := by
  induction t using TypeExpr.rec (motive_2 := fun ts =>
      (∀ s ∈ ts, Unused parameters rename s) →
        (ts.map (renamed parameters rename)).map (substitute (parameters.map rename) arguments) =
          ts.map (substitute parameters arguments)) with
  | mk head inner suffix ih =>
      cases inner with
      | nil =>
          rw [renamed_mk]
          by_cases hhead : head ∈ parameters
          · have hplace := @argumentFor_rename parameters rename arguments head
              fun parameter hparameter => hnew.injective parameter hparameter head hhead
            obtain ⟨argument, hargument⟩ := exists_argumentFor hhead hlength
            simp [substitute, hhead, hplace, hargument]
          · simp [substitute, hhead, argumentFor_of_notMem hhead, argumentFor_of_notMem ht.head_ne]
      | cons first others =>
          have hothers := ih fun s hs => ht.of_mem hs
          rw [renamed_mk]
          simpa [substitute] using hothers
  | nil => rfl
  | cons t ts htype htypes =>
      rename_i hmem
      obtain ⟨hfirst, hrest⟩ := List.forall_mem_cons.mp hmem
      rw [List.map_cons, List.map_cons, List.map_cons, htype hfirst, htypes hrest]

/-- A type is well formed, and none of the new names stands in it. -/
structure Renamable (parameters : List String) (rename : String → String) (t : TypeExpr) :
    Prop where
  wellFormed : t.WellFormed
  unused : Unused parameters rename t

/-- New names do not stand in a type without its marks, if they do not stand in the type. -/
theorem Renamable.unmarked (ht : t.Renamable parameters rename) :
    Renamable parameters rename ⟨t.head, t.arguments, ""⟩ := by
  obtain ⟨hformed, hunused⟩ := ht
  cases t
  exact ⟨hformed.unmarked, hunused⟩

/-- New names do not stand in the arguments of a type, if they do not stand in the type. -/
theorem Renamable.of_mem (ht : t.Renamable parameters rename) (hs : s ∈ t.arguments) :
    s.Renamable parameters rename := by
  obtain ⟨_, hinner, _⟩ := ht.wellFormed
  exact ⟨hinner s hs, ht.unused.of_mem hs⟩

/-- The old names in the place of the new ones give the type back. -/
theorem substitute_renamed_named (hnew : NewNames parameters rename)
    (ht : Unused parameters rename t) :
    (t.renamed parameters rename).substitute
      (parameters.map rename) (parameters.map named) = t := by
  rw [substitute_renamed hnew (List.length_map _).symm ht]
  exact renamed_id t

/-- Different types stay different. -/
theorem renamed_injective (hnew : NewNames parameters rename) (hs : Unused parameters rename s)
    (ht : Unused parameters rename t)
    (h : s.renamed parameters rename = t.renamed parameters rename) : s = t := by
  rw [← substitute_renamed_named hnew hs, h, substitute_renamed_named hnew ht]

/-- A renamed type is well formed. -/
theorem WellFormed.renamed (ht : t.WellFormed) (hnew : NewNames parameters rename) :
    (t.renamed parameters rename).WellFormed := by
  refine ht.substitute fun argument hargument => ?_
  obtain ⟨parameter, hparameter, rfl⟩ := List.mem_map.mp hargument
  exact hnew.wellFormed parameter hparameter

/-- Renamed types are written alike exactly if the types are. -/
theorem Renamable.display_renamed_inj (hnew : NewNames parameters rename)
    (hs : s.Renamable parameters rename) (ht : t.Renamable parameters rename) :
    (s.renamed parameters rename).display = (t.renamed parameters rename).display ↔
      s.display = t.display := by
  constructor
  · intro h
    have hsame := (hs.wellFormed.renamed hnew).display_inj (ht.wellFormed.renamed hnew) h
    rw [renamed_injective hnew hs.unused ht.unused hsame]
  · intro h
    rw [hs.wellFormed.display_inj ht.wellFormed h]

/-- A type that is renamed into one without new names is not changed. -/
theorem renamed_eq_self_of_unused (h : Unused parameters rename (t.renamed parameters rename)) :
    t.renamed parameters rename = t := by
  induction t using TypeExpr.rec (motive_2 := fun ts =>
      (∀ s ∈ ts, Unused parameters rename (s.renamed parameters rename)) →
        ts.map (renamed parameters rename) = ts) with
  | mk head arguments suffix ih =>
      rw [renamed_mk] at h ⊢
      have harguments := ih fun s hs => h.of_mem (List.mem_map_of_mem hs)
      have hhead := h.head_ne
      rw [harguments]
      split
      · rename_i hparameter
        rw [if_pos hparameter] at hhead
        exact absurd (List.mem_map_of_mem hparameter.2) hhead
      · rfl
  | nil => rfl
  | cons t ts ht hts =>
      rename_i hmem
      obtain ⟨hfirst, hrest⟩ := List.forall_mem_cons.mp hmem
      rw [List.map_cons, ht hfirst, hts hrest]

/-! ## Types that the analysis knows -/

/-- The names that the analysis knows of types without arguments. They are no names for
parameters: one is a keyword, the others are qualified. -/
def knownNames : List String := ["void", taskName, baseInterfaceName]

/-- Neither the parameters nor their new names are known to the analysis. -/
def Unknown (parameters : List String) (rename : String → String) : Prop :=
  ∀ name ∈ knownNames, name ∉ parameters ∧ name ∉ parameters.map rename

/-- A renamed type applies a known definition exactly if the type does. -/
theorem isDefinition_renamed (hunknown : Unknown parameters rename) (hname : name ∈ knownNames)
    (t : TypeExpr) (n : Nat) :
    (t.renamed parameters rename).isDefinition name n = t.isDefinition name n := by
  obtain ⟨hold, hnew⟩ := hunknown name hname
  obtain ⟨head, arguments, suffix⟩ := t
  rw [renamed_mk, Bool.eq_iff_iff, isDefinition_eq_true_iff, isDefinition_eq_true_iff]
  simp only [arity, List.length_map]
  split
  · rename_i hparameter
    have hkept : rename head ≠ name := fun heq => hnew (heq ▸ List.mem_map_of_mem hparameter.2)
    have hother : head ≠ name := fun heq => hold (heq ▸ hparameter.2)
    simp [hkept, hother]
  · rfl

/-- A return type keeps its dispatch kind, or that it has none. -/
theorem kind_classify_renamed (hnew : NewNames parameters rename)
    (hunknown : Unknown parameters rename) (ht : Unused parameters rename t) :
    (t.renamed parameters rename).classify.kind = t.classify.kind := by
  obtain ⟨hvoid, hnewVoid⟩ := hunknown "void" (by decide)
  obtain ⟨htask, hnewTask⟩ := hunknown taskName (by decide)
  by_cases hkind : t.classify.kind = .other
  · -- Were there a kind, the old names in the place of the new ones would keep it.
    by_contra hdiffers
    have hother : (t.renamed parameters rename).classify.kind ≠ .other := hkind ▸ hdiffers
    have hback := @classify_substitute _ (parameters.map named) _ hnewVoid hnewTask hother
    rw [substitute_renamed_named hnew ht] at hback
    exact hdiffers (congrArg Classification.kind hback).symm
  · have hkept := @classify_substitute _
      (parameters.map fun parameter => named (rename parameter)) _ hvoid htask hkind
    exact (congrArg Classification.kind hkept :)

end RadioBroker.TypeExpr
