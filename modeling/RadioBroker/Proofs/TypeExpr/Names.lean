import RadioBroker.Proofs.Text.Segment
import RadioBroker.Proofs.TypeExpr.Substitution

/-!
# Names in types

The names in a type are its head and those in its arguments, at any depth. Arguments in place of
parameters bring no names but their own, and up to its first angle bracket a type is written like a
declared name only if that name is its head.
-/

namespace RadioBroker

namespace TypeExpr

mutual

/-- The names in a type, at any depth. -/
def names : TypeExpr → List String
  | ⟨head, arguments, _⟩ => head :: namesIn arguments

/-- The names in several types, at any depth. -/
def namesIn : List TypeExpr → List String
  | [] => []
  | t :: ts => names t ++ namesIn ts

end

@[simp] theorem namesIn_eq_flatMap (ts : List TypeExpr) : namesIn ts = ts.flatMap names := by
  induction ts with
  | nil => rfl
  | cons t ts ih => simp [namesIn, ih]

/-- The head of a type is one of its names. -/
theorem head_mem_names (t : TypeExpr) : t.head ∈ t.names := by
  obtain ⟨head, arguments, suffix⟩ := t
  exact List.mem_cons_self

/-- The names in the arguments of a type are names in the type. -/
theorem names_subset_of_mem {s t : TypeExpr} (h : s ∈ t.arguments) : s.names ⊆ t.names := by
  obtain ⟨head, arguments, suffix⟩ := t
  intro name hname
  rw [names, namesIn_eq_flatMap]
  exact List.mem_cons_of_mem _ (List.mem_flatMap.mpr ⟨s, h, hname⟩)

/-- Marks bring no names. -/
@[simp] theorem names_withSuffix (t : TypeExpr) (marks : String) :
    (t.withSuffix marks).names = t.names := by
  obtain ⟨head, arguments, suffix⟩ := t
  rfl

/-- Arguments in place of parameters bring no names but their own. -/
theorem mem_names_substitute {parameters : List String} {arguments : List TypeExpr}
    {name : String} {t : TypeExpr} (h : name ∈ (t.substitute parameters arguments).names) :
    name ∈ t.names ∨ ∃ argument ∈ arguments, name ∈ argument.names := by
  induction t using TypeExpr.rec (motive_2 := fun ts =>
      name ∈ (ts.map (substitute parameters arguments)).flatMap names →
        name ∈ ts.flatMap names ∨ ∃ argument ∈ arguments, name ∈ argument.names) with
  | mk head inner suffix ih =>
      cases inner with
      | nil =>
          rw [substitute, names_withSuffix] at h
          cases hargument : argumentFor head parameters arguments with
          | none =>
              rw [hargument] at h
              exact Or.inl h
          | some argument =>
              rw [hargument] at h
              exact Or.inr ⟨argument, mem_of_argumentFor hargument, h⟩
      | cons first others =>
          rw [substitute, substituteList_eq_map, names, namesIn_eq_flatMap] at h
          rw [names, namesIn_eq_flatMap]
          rcases List.mem_cons.mp h with rfl | hinner
          · exact Or.inl List.mem_cons_self
          · exact (ih hinner).imp_left (List.mem_cons_of_mem _)
  | nil =>
      rename_i hnone
      cases hnone
  | cons t ts ht hts =>
      rename_i h
      rw [List.map_cons, List.flatMap_cons] at h
      rw [List.flatMap_cons]
      rcases List.mem_append.mp h with hfirst | hlater
      · exact (ht hfirst).imp_left (List.mem_append_left _)
      · exact (hts hlater).imp_left (List.mem_append_right _)

/-! ## How types are written -/

/-- Marks are opened by a character that stands in no name. -/
theorem IsMarks.mem_of_cons {c : Char} {cs : List Char} (h : IsMarks (c :: cs)) :
    c ∈ ['?', '*', '['] := by
  cases h with
  | mark hmark _ => rcases hmark with rfl | rfl <;> decide
  | rank => decide

/-- Up to its first angle bracket a type is written as its head, unless marks or a tuple stand
there. -/
theorem WellFormed.before_display {t : TypeExpr} (h : t.WellFormed)
    (hplain : ∀ c ∈ ['?', '*', '[', '('], c ∉ (Text.before '<' t.display).toList) :
    Text.before '<' t.display = t.head := by
  have hwritten := toList_display t
  generalize t.display = text at hwritten hplain ⊢
  obtain @⟨head, suffix, arguments, hhead, _, hsuffix⟩ := h
  simp only at hwritten
  rw [← String.toList_inj]
  generalize hcs : head.toList = cs at hhead hwritten ⊢
  cases hhead with
  | tuple _ =>
      have hbracket : ∀ c ∈ ['('], c ≠ '<' := by simp
      rw [@Text.toList_before_append '<' text ['('] _ hwritten hbracket] at hplain
      exact absurd List.mem_cons_self (hplain '(' (by decide))
  | @name c rest hfirst _ hrest =>
      have hname : ∀ d ∈ c :: rest, d ≠ '<' := by
        intro d hd heq
        subst heq
        have hchar : isNameChar '<' = true := by
          rcases List.mem_cons.mp hd with heq | hmem
          · rwa [heq]
          · exact hrest _ hmem
        revert hchar
        decide +kernel
      rw [Text.toList_before_append hwritten hname] at hplain ⊢
      split
      · -- There are no arguments, so what stands behind the head are marks.
        cases hmarks : suffix.toList with
        | nil => simp
        | cons d ds =>
            rename_i hnone
            rw [hmarks] at hsuffix
            have hmark := hsuffix.mem_of_cons
            have hmem : d ∈ ['?', '*', '[', '('] := by
              simp only [List.mem_cons, List.not_mem_nil, or_false] at hmark ⊢
              tauto
            have hne : d ≠ '<' := by
              rintro rfl
              revert hmark
              decide
            refine absurd ?_ (hplain d hmem)
            simp [hnone, hmarks, hne]
      · simp

end TypeExpr

end RadioBroker
