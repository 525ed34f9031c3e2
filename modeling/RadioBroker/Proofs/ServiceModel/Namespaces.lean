import Mathlib.Data.List.Nodup
import RadioBroker.ServiceModel.Relation

/-!
# Namespaces of a model

The roots of a model, namespace by namespace: each namespace has the roots that are in it, and no
namespace stands twice. A root that is added is filed under its namespace.
-/

namespace RadioBroker

/-- A list without repetitions is left of any list when repetitions are dropped. -/
theorem nodup_eraseDups {α : Type} [DecidableEq α] (entries : List α) :
    entries.eraseDups.Nodup := by
  induction hlength : entries.length using Nat.strongRecOn generalizing entries with
  | ind length ih =>
      cases entries with
      | nil => exact List.nodup_nil
      | cons entry entries =>
          rw [List.eraseDups_cons]
          refine List.nodup_cons.mpr ⟨?_, ?_⟩
          · simp [List.mem_eraseDups]
          · have hless := List.length_filter_le (fun other => !other == entry) entries
            exact ih _ (by rw [← hlength, List.length_cons]; omega) _ rfl

/-! ## Insertions -/

namespace Relations

variable {α : Type} [DecidableEq α] {entry other : α} {entries : List α}

/-- An entry that is there is not inserted. -/
theorem insertNew_of_mem (h : entry ∈ entries) : insertNew entry entries = entries := if_pos h

/-- A new entry is inserted at the end. -/
theorem insertNew_of_notMem (h : entry ∉ entries) :
    insertNew entry entries = entries ++ [entry] := if_neg h

/-- An entry is inserted behind another one as it is without it. -/
theorem insertNew_cons_of_ne (h : entry ≠ other) :
    insertNew entry (other :: entries) = other :: insertNew entry entries := by
  by_cases hmem : entry ∈ entries
  · rw [insertNew_of_mem hmem, insertNew_of_mem (List.mem_cons_of_mem _ hmem)]
  · rw [insertNew_of_notMem hmem, insertNew_of_notMem (List.not_mem_cons_of_ne_of_not_mem h hmem),
      List.cons_append]

/-- Where repetitions are dropped, an entry at the end is inserted. -/
theorem eraseDups_append_singleton (entries : List α) (entry : α) :
    (entries ++ [entry]).eraseDups = insertNew entry entries.eraseDups := by
  rw [List.eraseDups_append, List.removeAll]
  by_cases hmem : entry ∈ entries
  · rw [insertNew_of_mem (List.mem_eraseDups.mpr hmem)]
    simp [hmem]
  · rw [insertNew_of_notMem (mt List.mem_eraseDups.mp hmem)]
    simp [hmem, List.eraseDups_cons]

/-- An entry that a filter keeps is inserted behind the filter. -/
theorem filter_insertNew_of_pos (keep : α → Bool) (hkeep : keep entry = true) :
    (insertNew entry entries).filter keep = insertNew entry (entries.filter keep) := by
  unfold insertNew
  by_cases hmem : entry ∈ entries
  · rw [if_pos hmem, if_pos (List.mem_filter.mpr ⟨hmem, hkeep⟩)]
  · rw [if_neg hmem, if_neg fun h => hmem (List.mem_of_mem_filter h), List.filter_append,
      List.filter_cons_of_pos hkeep, List.filter_nil]

/-- An entry that a filter drops may as well not be inserted. -/
theorem filter_insertNew_of_neg (keep : α → Bool) (hkeep : keep entry = false) :
    (insertNew entry entries).filter keep = entries.filter keep := by
  unfold insertNew
  split
  · rfl
  · rw [List.filter_append, List.filter_cons_of_neg (by simp [hkeep]), List.filter_nil,
      List.append_nil]

end Relations

/-! ## The table of namespaces -/

namespace ServiceModel

open Relations

variable {model : ServiceModel} {name : String}

/-- The namespaces are those of the roots. -/
theorem mem_map_fst_namespaces_iff :
    name ∈ model.namespaces.map Prod.fst ↔
      ∃ root ∈ model.relations.roots, model.namespaceOf root = name := by
  simp [namespaces, List.mem_eraseDups]

/-- A namespace has the roots that are in it. -/
theorem mem_namespaces_iff {roots : List TypeId} :
    (name, roots) ∈ model.namespaces ↔
      (∃ root ∈ model.relations.roots, model.namespaceOf root = name) ∧
        roots = model.relations.roots.filter fun root => model.namespaceOf root = name := by
  simp only [namespaces, List.mem_map, List.mem_eraseDups, Prod.mk.injEq]
  constructor
  · intro hentry
    obtain ⟨_, hroot, rfl, heq⟩ := hentry
    exact ⟨hroot, heq.symm⟩
  · intro hentry
    exact ⟨name, hentry.1, rfl, hentry.2.symm⟩

/-- Files a root under its namespace: behind the other roots there, unless it is one of them. A new
namespace stands behind all others. -/
def fileUnder (name : String) (root : TypeId) :
    List (String × List TypeId) → List (String × List TypeId)
  | [] => [(name, [root])]
  | (other, roots) :: rest =>
    if other = name then (other, insertNew root roots) :: rest
    else (other, roots) :: fileUnder name root rest

/-- A root is filed in a table that has an entry for each of some names. -/
theorem fileUnder_map {root : TypeId} {names : List String} {rootsOf : String → List TypeId}
    (hnodup : names.Nodup) (hnew : name ∉ names → rootsOf name = []) :
    fileUnder name root (names.map fun other => (other, rootsOf other)) =
      (insertNew name names).map fun other =>
        (other, if other = name then insertNew root (rootsOf other) else rootsOf other) := by
  induction names with
  | nil => simp [fileUnder, insertNew, hnew]
  | cons other names ih =>
      obtain ⟨hother, hrest⟩ := List.nodup_cons.mp hnodup
      rw [List.map_cons, fileUnder]
      by_cases heq : other = name
      case pos =>
        subst heq
        rw [if_pos rfl, insertNew_of_mem List.mem_cons_self, List.map_cons, if_pos rfl]
        refine congrArg _ (List.map_congr_left fun name hname => ?_)
        have hne : name ≠ other := fun h => hother (h ▸ hname)
        rw [if_neg hne]
      case neg =>
        rw [if_neg heq, insertNew_cons_of_ne (Ne.symm heq), List.map_cons, if_neg heq]
        refine congrArg _ (ih hrest fun h => hnew ?_)
        exact List.not_mem_cons_of_ne_of_not_mem (Ne.symm heq) h

/-- The table of namespaces grows entry by entry: a root that is added is filed under its
namespace. -/
theorem namespaces_addRoot (model : ServiceModel) (root : TypeId) :
    ({ model with relations := model.relations.addRoot root } : ServiceModel).namespaces =
      fileUnder (model.namespaceOf root) root model.namespaces := by
  have hnames : ((insertNew root model.relations.roots).map model.namespaceOf).eraseDups =
      insertNew (model.namespaceOf root)
        (model.relations.roots.map model.namespaceOf).eraseDups := by
    by_cases hmem : root ∈ model.relations.roots
    · have hname := List.mem_eraseDups.mpr (List.mem_map_of_mem (f := model.namespaceOf) hmem)
      rw [insertNew_of_mem hmem, insertNew_of_mem hname]
    · rw [insertNew_of_notMem hmem, List.map_append, List.map_singleton, eraseDups_append_singleton]
  have hroots : ∀ name, ((insertNew root model.relations.roots).filter fun other =>
      model.namespaceOf other = name) =
        if name = model.namespaceOf root then
          insertNew root (model.relations.roots.filter fun other => model.namespaceOf other = name)
        else model.relations.roots.filter fun other => model.namespaceOf other = name := by
    intro name
    split
    · rename_i heq
      exact filter_insertNew_of_pos _ (decide_eq_true heq.symm)
    · rename_i hne
      exact filter_insertNew_of_neg _ (decide_eq_false fun heq => hne heq.symm)
  have hnew : model.namespaceOf root ∉ (model.relations.roots.map model.namespaceOf).eraseDups →
      (model.relations.roots.filter fun other =>
        model.namespaceOf other = model.namespaceOf root) = [] := by
    simp
  rw [namespaces, namespaces, fileUnder_map (nodup_eraseDups _) hnew, ← hnames]
  exact List.map_congr_left fun name _ => congrArg _ (hroots name)

end ServiceModel

end RadioBroker
