import Mathlib.Data.List.Perm.Subperm
import Mathlib.Logic.Relation
import RadioBroker.Proofs.TypeGraph.WellFormed

/-!
# Containment

Types enclose types, at most one type each. Where no type encloses itself, directly or through
others, the types around a type are a chain that ends at a root, and two types with the same
parent have nothing below them in common.
-/

namespace RadioBroker.TypeGraph

open Relation

/-- `outer` encloses `inner` directly. -/
def Encloses (graph : TypeGraph) (outer inner : TypeId) : Prop :=
  graph.parent? inner = some outer

/-- No type encloses itself, directly or through others. -/
def Acyclic (graph : TypeGraph) : Prop :=
  ∀ id, ¬ TransGen graph.Encloses id id

/-- A type of the graph is partial. -/
def IsPartial (graph : TypeGraph) (id : TypeId) : Prop :=
  ∃ node, graph.node? id = some node ∧ node.declaration.isPartial = true

variable {graph : TypeGraph}

/-- A type that is not declared partial is not. -/
theorem not_isPartial {id : TypeId} {node : TypeNode} (hnode : graph.node? id = some node)
    (hpartial : node.declaration.isPartial = false) : ¬ graph.IsPartial id := by
  intro h
  obtain ⟨other, hother, hotherPartial⟩ := h
  cases hnode.symm.trans hother
  simp [hpartial] at hotherPartial

/-- A type that is enclosed is a type of the graph. -/
theorem Encloses.inner_lt {outer inner : TypeId} (h : graph.Encloses outer inner) :
    inner < graph.size := by
  obtain ⟨node, hnode, _⟩ := Option.bind_eq_some_iff.mp h
  exact exists_node_iff.mp ⟨node, hnode⟩

/-- Types that stand behind those that enclose them cannot enclose themselves. -/
theorem acyclic_of_lt
    (h : ∀ inner ∈ graph.ids, ∀ outer, graph.parent? inner = some outer → outer < inner) :
    graph.Acyclic := by
  have hlt : ∀ {outer inner}, TransGen graph.Encloses outer inner → outer < inner := by
    intro outer inner hpath
    induction hpath with
    | single hstep => exact h _ (mem_ids.mpr hstep.inner_lt) _ hstep
    | tail _ hstep ih => exact Nat.lt_trans ih (h _ (mem_ids.mpr hstep.inner_lt) _ hstep)
  intro id hcycle
  exact Nat.lt_irrefl id (hlt hcycle)

/-! ## The chain of enclosing types -/

/-- Every type met while climbing encloses the type that the climb starts at. -/
theorem transGen_of_mem_climb {steps : Nat} {outer id : TypeId} (h : outer ∈ graph.climb steps id) :
    TransGen graph.Encloses outer id := by
  induction steps generalizing id with
  | zero => cases h
  | succ steps ih =>
      simp only [climb] at h
      split at h
      · cases h
      · rename_i parent hparent
        rcases List.mem_cons.mp h with rfl | hrest
        · exact .single hparent
        · exact (ih hrest).tail hparent

/-- Every type that encloses a type is met when the climb is long enough. -/
theorem exists_mem_climb {outer id : TypeId} (h : TransGen graph.Encloses outer id) :
    ∃ steps, outer ∈ graph.climb steps id := by
  induction h with
  | single hstep => exact ⟨1, by simp [climb, show graph.parent? _ = some _ from hstep]⟩
  | tail _ hstep ih =>
      obtain ⟨steps, hmem⟩ := ih
      exact ⟨steps + 1, by simp [climb, show graph.parent? _ = some _ from hstep, hmem]⟩

/-- A climb meets no type twice. -/
theorem Acyclic.nodup_climb (hacyclic : graph.Acyclic) (steps : Nat) (id : TypeId) :
    (graph.climb steps id).Nodup := by
  induction steps generalizing id with
  | zero => exact List.nodup_nil
  | succ steps ih =>
      simp only [climb]
      split
      · exact List.nodup_nil
      · rename_i parent hparent
        refine List.nodup_cons.mpr ⟨?_, ih parent⟩
        intro hmem
        exact hacyclic parent (transGen_of_mem_climb hmem)

/-- A climb meets types of the graph only. -/
theorem WellFormed.lt_of_mem_climb (hgraph : graph.WellFormed) {steps : Nat} {outer id : TypeId}
    (h : outer ∈ graph.climb steps id) : outer < graph.size := by
  induction steps generalizing id with
  | zero => cases h
  | succ steps ih =>
      simp only [climb] at h
      split at h
      · cases h
      · rename_i parent hparent
        rcases List.mem_cons.mp h with rfl | hrest
        · exact hgraph.parent_lt hparent
        · exact ih hrest

/-- The types of a list without repetition are no more than there are types. -/
theorem length_le_size_of_nodup {ids : List TypeId} (hnodup : ids.Nodup)
    (hlt : ∀ id ∈ ids, id < graph.size) : ids.length ≤ graph.size := by
  have hsubset : ids ⊆ graph.ids := fun id hmem => mem_ids.mpr (hlt id hmem)
  have hle := (List.Nodup.subperm hnodup hsubset).length_le
  rwa [TypeGraph.ids, List.length_range] at hle

/-- A longer climb meets what a shorter one meets. -/
theorem mem_climb_of_le {steps more : Nat} {outer id : TypeId} (hle : steps ≤ more)
    (h : outer ∈ graph.climb steps id) : outer ∈ graph.climb more id := by
  induction steps generalizing id more with
  | zero => cases h
  | succ steps ih =>
      obtain ⟨rest, rfl⟩ : ∃ rest, more = rest + 1 := ⟨more - 1, by omega⟩
      simp only [climb] at h ⊢
      split at h
      · cases h
      · rcases List.mem_cons.mp h with rfl | hrest
        · exact List.mem_cons_self
        · exact List.mem_cons_of_mem _ (ih (by omega) hrest)

/-- A climb that has ended is not continued. -/
theorem climb_eq_of_length_lt {steps more : Nat} {id : TypeId} (hle : steps ≤ more)
    (h : (graph.climb steps id).length < steps) :
    graph.climb more id = graph.climb steps id := by
  induction steps generalizing id more with
  | zero => exact absurd h (Nat.not_lt_zero _)
  | succ steps ih =>
      obtain ⟨rest, rfl⟩ : ∃ rest, more = rest + 1 := ⟨more - 1, by omega⟩
      simp only [climb] at h ⊢
      split at h
      · rfl
      · rw [ih (by omega) (by simpa using h)]

/-- Fewer types enclose a type than there are types. -/
theorem length_climb_lt (hgraph : graph.WellFormed) (hacyclic : graph.Acyclic) {steps : Nat}
    {id : TypeId} (hid : id < graph.size) : (graph.climb steps id).length < graph.size := by
  have hnodup : (id :: graph.climb steps id).Nodup :=
    List.nodup_cons.mpr
      ⟨fun hmem => hacyclic id (transGen_of_mem_climb hmem), hacyclic.nodup_climb steps id⟩
  refine length_le_size_of_nodup hnodup ?_
  intro outer hmem
  rcases List.mem_cons.mp hmem with rfl | hrest
  · exact hid
  · exact hgraph.lt_of_mem_climb hrest

/-- The ancestors of a nested type are the type around it and the ancestors of that. -/
theorem ancestors_of_encloses (hgraph : graph.WellFormed) (hacyclic : graph.Acyclic)
    {outer inner : TypeId} (h : graph.Encloses outer inner) :
    graph.ancestors inner = outer :: graph.ancestors outer := by
  -- The climb from the inner type ends early, so one step less is enough for the outer one.
  have hinner : (graph.climb graph.size inner).length < graph.size :=
    length_climb_lt hgraph hacyclic h.inner_lt
  have hclimb : graph.climb graph.size inner = outer :: graph.climb (graph.size - 1) outer := by
    obtain ⟨steps, hsteps⟩ : ∃ steps, graph.size = steps + 1 :=
      ⟨graph.size - 1, by have := h.inner_lt; omega⟩
    rw [hsteps]
    simp [climb, show graph.parent? inner = some outer from h]
  rw [hclimb, List.length_cons] at hinner
  rw [ancestors, ancestors, hclimb, climb_eq_of_length_lt (Nat.sub_le graph.size 1) (by omega)]

/-- A type that no type encloses has no ancestors. -/
theorem ancestors_of_root {id : TypeId} (h : graph.parent? id = none) :
    graph.ancestors id = [] := by
  unfold ancestors
  cases graph.size <;> simp [climb, h]

/-- The ancestors of a type are the types that enclose it, directly or through others. -/
theorem mem_ancestors_iff (hgraph : graph.WellFormed) (hacyclic : graph.Acyclic)
    {outer id : TypeId} : outer ∈ graph.ancestors id ↔ TransGen graph.Encloses outer id := by
  constructor
  · exact transGen_of_mem_climb
  · intro hpath
    obtain ⟨middle, _, hstep⟩ := TransGen.tail'_iff.mp hpath
    obtain ⟨steps, hmem⟩ := exists_mem_climb hpath
    have hlong := mem_climb_of_le (Nat.le_max_left steps graph.size) hmem
    rwa [climb_eq_of_length_lt (Nat.le_max_right steps graph.size)
      (length_climb_lt hgraph hacyclic hstep.inner_lt)] at hlong

/-! ## Types side by side -/

/-- A type that encloses one with the same parent is that type. -/
theorem Acyclic.eq_of_reflTransGen (hacyclic : graph.Acyclic) {first second : TypeId}
    (hparent : graph.parent? first = graph.parent? second)
    (h : ReflTransGen graph.Encloses first second) : first = second := by
  rcases ReflTransGen.cases_tail h with heq | ⟨parent, hpath, hstep⟩
  · exact heq.symm
  · have hfirst : graph.Encloses parent first := hparent.trans hstep
    exact absurd (TransGen.head' hfirst hpath) (hacyclic parent)

/-- Of types with the same parent no two enclose a type in common. -/
theorem Acyclic.eq_of_common (hacyclic : graph.Acyclic) {first second inner : TypeId}
    (hparent : graph.parent? first = graph.parent? second)
    (hfirst : ReflTransGen graph.Encloses first inner)
    (hsecond : ReflTransGen graph.Encloses second inner) : first = second := by
  -- A type has one parent, so the ways up from the inner type are one way.
  have hunique : Relator.RightUnique (Function.swap graph.Encloses) :=
    fun _ _ _ h h' => Option.some.inj (h.symm.trans h')
  rcases ReflTransGen.total_of_right_unique hunique (reflTransGen_swap.mpr hfirst)
    (reflTransGen_swap.mpr hsecond) with h | h
  · exact (hacyclic.eq_of_reflTransGen hparent.symm (reflTransGen_swap.mp h)).symm
  · exact hacyclic.eq_of_reflTransGen hparent (reflTransGen_swap.mp h)

end RadioBroker.TypeGraph
