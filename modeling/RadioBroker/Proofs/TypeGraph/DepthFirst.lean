import Mathlib.Logic.Relation
import RadioBroker.Declaration.Builder
import RadioBroker.Proofs.TypeGraph.Interfaces

/-!
# Depth-first search

How the interfaces of a type are found, said in two more ways: by the recursive visit of extension
lists, which enters each type once and then visits what it extends, and by a search with a stack,
which may hold a type many times and tells on taking it off whether it is new. `DepthFirst` says
that both end with the interfaces of the type, whatever circles extension lists make, and that these
are the types reached by extension, each of them once.
-/

namespace RadioBroker.TypeGraph

open Relation

variable {graph : TypeGraph} {seen middle after other list more unvisited : List TypeExpr}
  {s t : TypeExpr}

/-- `extended` stands in the extension list of the type declared under the written form of `t`. -/
def Extends (graph : TypeGraph) (t extended : TypeExpr) : Prop :=
  extended ∈ graph.extensionsOf t

/-! ## The recursive visit -/

/-- Visiting the types of `list` one after another, when the types of `seen` have been visited,
leaves those of `after` visited, in the order of their first visits. -/
inductive Visits (graph : TypeGraph) : (seen list after : List TypeExpr) → Prop
  | nil {seen : List TypeExpr} : Visits graph seen [] seen
  /-- A type that has been visited is passed over. -/
  | pass {t : TypeExpr} {seen list after : List TypeExpr} (hseen : t ∈ seen)
      (rest : Visits graph seen list after) : Visits graph seen (t :: list) after
  /-- A new type is visited, and then what it extends. -/
  | enter {t : TypeExpr} {seen middle list after : List TypeExpr} (hnew : t ∉ seen)
      (inner : Visits graph (seen ++ [t]) (graph.extensionsOf t) middle)
      (rest : Visits graph middle list after) : Visits graph seen (t :: list) after

/-- A visit ends in one way only. -/
theorem Visits.unique (h : Visits graph seen list after) (hother : Visits graph seen list other) :
    other = after := by
  induction h generalizing other with
  | nil =>
      cases hother
      rfl
  | pass hseen _ ih =>
      cases hother with
      | pass _ rest => exact ih rest
      | enter hnew _ _ => exact absurd hseen hnew
  | enter hnew _ _ hinner hrest =>
      cases hother with
      | pass hseen _ => exact absurd hseen hnew
      | enter _ inner rest =>
          obtain rfl := hinner inner
          exact hrest rest

/-- A visit of two lists goes through the first and then through the second. -/
theorem Visits.of_append (h : Visits graph seen (list ++ more) after) :
    ∃ middle, Visits graph seen list middle ∧ Visits graph middle more after := by
  induction list generalizing seen with
  | nil => exact ⟨seen, .nil, h⟩
  | cons t list ih =>
      cases h with
      | pass hseen rest =>
          obtain ⟨middle, hfirst, hsecond⟩ := ih rest
          exact ⟨middle, .pass hseen hfirst, hsecond⟩
      | enter hnew inner rest =>
          obtain ⟨middle, hfirst, hsecond⟩ := ih rest
          exact ⟨middle, .enter hnew inner hfirst, hsecond⟩

/-- No type is visited twice. -/
theorem Visits.nodup (h : Visits graph seen list after) (hseen : seen.Nodup) : after.Nodup := by
  induction h with
  | nil => exact hseen
  | pass _ _ ih => exact ih hseen
  | enter hnew _ _ hinner hrest =>
      exact hrest (hinner (List.nodup_append.mpr ⟨hseen, List.nodup_singleton _, by
        intro first hfirst second hsecond heq
        exact hnew (List.mem_singleton.mp hsecond ▸ heq ▸ hfirst)⟩))

/-- What is visited has been visited before, or is reached from the list by extension. -/
theorem Visits.cases_of_mem (h : Visits graph seen list after) (ht : t ∈ after) :
    t ∈ seen ∨ ∃ s ∈ list, ReflTransGen graph.Extends s t := by
  induction h with
  | nil => exact Or.inl ht
  | pass _ _ ih =>
      refine (ih ht).imp_right ?_
      rintro ⟨s, hs, hway⟩
      exact ⟨s, List.mem_cons_of_mem _ hs, hway⟩
  | @enter first seen middle list after _ _ _ hinner hrest =>
      rcases hrest ht with hmiddle | ⟨s, hs, hway⟩
      · rcases hinner hmiddle with hbefore | ⟨s, hs, hway⟩
        · rcases List.mem_append.mp hbefore with hseen | hself
          · exact Or.inl hseen
          · exact Or.inr ⟨first, List.mem_cons_self, List.mem_singleton.mp hself ▸ .refl⟩
        · exact Or.inr ⟨first, List.mem_cons_self, .head hs hway⟩
      · exact Or.inr ⟨s, List.mem_cons_of_mem _ hs, hway⟩

/-! ## The pool of unvisited types -/

/-- Of the types that extension lists mention, the unvisited ones are those that are not seen. -/
def Complementary (graph : TypeGraph) (seen unvisited : List TypeExpr) : Prop :=
  ∀ t ∈ graph.mentioned, t ∈ unvisited ↔ t ∉ seen

/-- A type that is visited leaves the pool. -/
theorem Complementary.without (h : graph.Complementary seen unvisited) (t : TypeExpr) :
    graph.Complementary (seen ++ [t]) (without t unvisited) := by
  intro s hs
  simp [TypeGraph.without, h s hs]

/-- Taking types from the pool is the recursive visit. Each type that is entered makes the pool
smaller, so the visit ends where types extend each other in circles, too. -/
theorem visits_preorder (hpool : graph.Complementary seen unvisited)
    (hlist : ∀ t ∈ list, t ∈ graph.mentioned) :
    Visits graph seen list (seen ++ graph.preorder unvisited list) := by
  fun_induction graph.preorder unvisited list generalizing seen with
  | case1 =>
      rw [List.append_nil]
      exact .nil
  | case2 unvisited first rest hfirst ih =>
      have hmentioned := hlist first List.mem_cons_self
      have hnext : ∀ t ∈ graph.extensionsOf first ++ rest, t ∈ graph.mentioned := by
        intro t ht
        rcases List.mem_append.mp ht with hextends | hrest
        · exact mem_mentioned_of_extends hextends
        · exact hlist t (List.mem_cons_of_mem _ hrest)
      obtain ⟨middle, hinner, hrest⟩ := (ih (hpool.without first) hnext).of_append
      rw [List.append_assoc] at hrest
      exact .enter ((hpool first hmentioned).mp hfirst) hinner hrest
  | case3 unvisited first rest hfirst ih =>
      have hmentioned := hlist first List.mem_cons_self
      have hseen : first ∈ seen := by
        by_contra hnew
        exact hfirst ((hpool first hmentioned).mpr hnew)
      exact .pass hseen (ih hpool fun t ht => hlist t (List.mem_cons_of_mem _ ht))

/-! ## The search with a stack -/

/-- A search: the types that it has seen, in order, and those that it has still to look at, the next
one first. -/
structure Search where
  seen : List TypeExpr
  stack : List TypeExpr
deriving DecidableEq, Repr

/-- One round of a search. The type on top of the stack is taken off; if it is new, it is noted, and
what it extends is put on the stack. A search with an empty stack is over. -/
def Search.next (graph : TypeGraph) (search : Search) : Option Search :=
  match search.stack with
  | [] => none
  | t :: stack =>
    some (if t ∈ search.seen then ⟨search.seen, stack⟩
      else ⟨search.seen ++ [t], graph.extensionsOf t ++ stack⟩)

/-- A search gets somewhere in some number of rounds. -/
def Search.Leads (graph : TypeGraph) : Search → Search → Prop :=
  ReflTransGen fun search following => search.next graph = some following

/-- Whatever waits further down in the stack, a search deals with what is on top of it as the
recursive visit does. -/
theorem Visits.leads (h : Visits graph seen list after) (stack : List TypeExpr) :
    Search.Leads graph ⟨seen, list ++ stack⟩ ⟨after, stack⟩ := by
  induction h generalizing stack with
  | nil => exact .refl
  | pass hseen _ ih => exact .head (by simp [Search.next, hseen]) (ih stack)
  | @enter t seen middle list after hnew _ _ hinner hrest =>
      have hround : Search.next graph ⟨seen, (t :: list) ++ stack⟩ =
          some ⟨seen ++ [t], graph.extensionsOf t ++ (list ++ stack)⟩ := by
        simp [Search.next, hnew]
      exact .head hround ((hinner (list ++ stack)).trans (hrest stack))

/-! ## The interfaces of a type -/

/-- `interfaces` is what a depth-first search from the types of `list` finds. -/
structure DepthFirst (graph : TypeGraph) (list interfaces : List TypeExpr) : Prop where
  /-- The recursive visit ends, with these and in one way only. -/
  visits_iff : ∀ after, Visits graph [] list after ↔ after = interfaces
  /-- The search with a stack ends, with these. -/
  leads : Search.Leads graph ⟨[], list⟩ ⟨interfaces, []⟩
  /-- No type is found twice. -/
  nodup : interfaces.Nodup
  /-- What is found is what is reached from the list by extension. -/
  mem_iff : ∀ t, t ∈ interfaces ↔ ∃ s ∈ list, ReflTransGen graph.Extends s t

/-- What is reached from an interface of a type is one as well. -/
theorem mem_allInterfaces_of_reflTransGen {id : TypeId} (hs : s ∈ graph.allInterfaces id)
    (hway : ReflTransGen graph.Extends s t) : t ∈ graph.allInterfaces id := by
  induction hway with
  | refl => exact hs
  | tail _ hstep ih => exact mem_allInterfaces_of_extends ih hstep

/-- The interfaces of a type are those that a depth-first search from its extension list finds, in
every graph. -/
theorem allInterfaces_depthFirst {id : TypeId} {node : TypeNode}
    (hnode : graph.node? id = some node) :
    graph.DepthFirst node.declaration.interfaces (graph.allInterfaces id) := by
  have hpool : graph.Complementary [] graph.mentioned := by
    intro t ht
    simp [ht]
  have hvisits : Visits graph [] node.declaration.interfaces (graph.allInterfaces id) := by
    have hall : graph.allInterfaces id =
        [] ++ graph.preorder graph.mentioned node.declaration.interfaces := by
      rw [allInterfaces, hnode, List.nil_append]
    rw [hall]
    exact visits_preorder hpool fun t ht => mem_mentioned_of_mem hnode ht
  constructor
  case visits_iff =>
    intro after
    constructor
    · exact hvisits.unique
    · intro heq
      rwa [heq]
  case leads =>
    have hleads := hvisits.leads []
    rwa [List.append_nil] at hleads
  case nodup => exact hvisits.nodup List.nodup_nil
  case mem_iff =>
    intro t
    constructor
    · intro ht
      rcases hvisits.cases_of_mem ht with hnever | hreached
      · cases hnever
      · exact hreached
    · rintro ⟨s, hs, hway⟩
      exact mem_allInterfaces_of_reflTransGen (mem_allInterfaces_of_mem hnode hs) hway

/-- Two interfaces that extend each other, the first one itself and an undeclared one as well. -/
def extensionCircle : TypeGraph :=
  ⟨[⟨{ Declaration.ofPath .interface "N" "IA" with
        interfaces := [⟨"N.IB", [], ""⟩, ⟨"N.IA", [], ""⟩] }, none, 0⟩,
    ⟨{ Declaration.ofPath .interface "N" "IB" with
        interfaces := [⟨"N.IA", [], ""⟩, ⟨"N.IC", [], ""⟩] }, none, 1⟩]⟩

/-- In the circle the first type has all three of them for interfaces, itself included. -/
theorem allInterfaces_extensionCircle :
    extensionCircle.node? 0 = some extensionCircle.nodes[0] ∧
      extensionCircle.DepthFirst [⟨"N.IB", [], ""⟩, ⟨"N.IA", [], ""⟩]
        (extensionCircle.allInterfaces 0) ∧
      extensionCircle.allInterfaces 0 =
        [⟨"N.IB", [], ""⟩, ⟨"N.IA", [], ""⟩, ⟨"N.IC", [], ""⟩] := by
  have hnode : extensionCircle.node? 0 = some extensionCircle.nodes[0] := by rfl
  exact ⟨hnode, allInterfaces_depthFirst hnode, by decide +kernel⟩

end RadioBroker.TypeGraph
