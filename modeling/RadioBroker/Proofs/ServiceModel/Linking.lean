import RadioBroker.Proofs.TypeGraph.Containment
import RadioBroker.ServiceModel.Relation

/-!
# What linking records

Linking a type records where its definition stands and that the type applies it. `Linking before
after` says that exactly the links of the types that are linked in between have been added, and that
each of these types has its definition and the type around it linked as well. It holds of every
single `link` and is transitive, so it holds of every sequence of them.
-/

namespace RadioBroker

/-- A relation between types that is recorded. -/
inductive Link where
  /-- No type encloses the definition. -/
  | root (definition : TypeId)
  /-- The type encloses the definition. -/
  | child (parent definition : TypeId)
  /-- The type applies the definition, or is it. -/
  | application (definition id : TypeId)

namespace TypeGraph

/-- The links that a type gives rise to: where its definition stands, and that it applies it. -/
def Demands (graph : TypeGraph) (id : TypeId) : Link → Prop
  | .root definition =>
    graph.definitionOf id = definition ∧ graph.parent? definition = none
  | .child parent definition =>
    graph.definitionOf id = definition ∧ graph.parent? definition = some parent
  | .application definition other => graph.definitionOf id = definition ∧ other = id

/-- The types that have to be linked along with a type. -/
def Needs (graph : TypeGraph) (id other : TypeId) : Prop :=
  other = graph.definitionOf id ∨ graph.parent? (graph.definitionOf id) = some other

/-- What a type needs is a type of the graph. -/
theorem WellFormed.needs_lt {graph : TypeGraph} (hgraph : graph.WellFormed) {id other : TypeId}
    (hid : id < graph.size) (h : graph.Needs id other) : other < graph.size := by
  rcases h with rfl | hparent
  · exact hgraph.definition_lt hid
  · exact hgraph.parent_lt hparent

end TypeGraph

namespace Relations

variable {graph : TypeGraph} {before middle after relations : Relations} {id : TypeId}

/-- A link is recorded. -/
def Holds (relations : Relations) : Link → Prop
  | .root definition => definition ∈ relations.roots
  | .child parent definition => (parent, definition) ∈ relations.children
  | .application definition id => (definition, id) ∈ relations.instances

/-- No link is recorded twice. -/
structure Distinct (relations : Relations) : Prop where
  roots : relations.roots.Nodup
  children : relations.children.Nodup
  instances : relations.instances.Nodup

/-- A type is unlinked first and linked afterwards. -/
def LinkedBetween (before after : Relations) (id : TypeId) : Prop :=
  id ∈ before.unlinked ∧ id ∉ after.unlinked

/-- Between two states exactly the links of the types linked in between have been recorded. -/
structure Linking (graph : TypeGraph) (before after : Relations) : Prop where
  unlinked_sublist : after.unlinked.Sublist before.unlinked
  holds_iff : ∀ link, after.Holds link ↔
    before.Holds link ∨ ∃ id, LinkedBetween before after id ∧ graph.Demands id link
  /-- A type is linked along with what it needs. -/
  needs : ∀ {id other}, LinkedBetween before after id → graph.Needs id other →
    other ∉ after.unlinked
  distinct : before.Distinct → after.Distinct

/-- Doing nothing links nothing. -/
theorem Linking.refl (graph : TypeGraph) (relations : Relations) :
    Linking graph relations relations where
  unlinked_sublist := List.Sublist.refl _
  holds_iff link := by simp [LinkedBetween]
  needs h := absurd h.1 h.2
  distinct h := h

/-- A type is linked in one of two steps if it is linked in both together. -/
theorem linkedBetween_iff_of_sublist (hfirst : middle.unlinked.Sublist before.unlinked)
    (hsecond : after.unlinked.Sublist middle.unlinked) :
    LinkedBetween before after id ↔ LinkedBetween before middle id ∨
      LinkedBetween middle after id := by
  constructor
  · intro hbetween
    obtain ⟨hbefore, hafter⟩ := hbetween
    by_cases hmiddle : id ∈ middle.unlinked
    · exact Or.inr ⟨hmiddle, hafter⟩
    · exact Or.inl ⟨hbefore, hmiddle⟩
  · intro hcases
    rcases hcases with ⟨hbefore, hmiddle⟩ | ⟨hmiddle, hafter⟩
    · exact ⟨hbefore, fun h => hmiddle (hsecond.subset h)⟩
    · exact ⟨hfirst.subset hmiddle, hafter⟩

/-- Two sequences of links make one. -/
theorem Linking.trans (hfirst : Linking graph before middle)
    (hsecond : Linking graph middle after) : Linking graph before after where
  unlinked_sublist := hsecond.unlinked_sublist.trans hfirst.unlinked_sublist
  holds_iff link := by
    simp only [hsecond.holds_iff link, hfirst.holds_iff link,
      linkedBetween_iff_of_sublist hfirst.unlinked_sublist hsecond.unlinked_sublist,
      or_and_right, exists_or, or_assoc]
  needs h hneeds := by
    rcases (linkedBetween_iff_of_sublist hfirst.unlinked_sublist
      hsecond.unlinked_sublist).mp h with hearly | hlate
    · exact fun hmem => hfirst.needs hearly hneeds (hsecond.unlinked_sublist.subset hmem)
    · exact hsecond.needs hlate hneeds
  distinct h := hsecond.distinct (hfirst.distinct h)

/-! ## Single records -/

/-- An entry is held behind its insertion, along with all that was held before. -/
theorem mem_insertNew {α : Type} [DecidableEq α] {entry other : α} {entries : List α} :
    other ∈ insertNew entry entries ↔ other ∈ entries ∨ other = entry := by
  unfold insertNew
  split
  · rename_i hmem
    constructor
    · exact Or.inl
    · intro hcases
      rcases hcases with hother | rfl
      · exact hother
      · exact hmem
  · simp

/-- An insertion repeats nothing. -/
theorem nodup_insertNew {α : Type} [DecidableEq α] {entry : α} {entries : List α}
    (h : entries.Nodup) : (insertNew entry entries).Nodup := by
  unfold insertNew
  split
  · exact h
  · rename_i hnew
    exact h.append (List.nodup_singleton _) (by simpa using hnew)

/-- Claiming a type records no link. -/
@[simp] theorem holds_claim {link : Link} :
    (relations.claim id).Holds link ↔ relations.Holds link := by
  cases link <;> rfl

/-- Recording a root and its application records these two links. -/
theorem holds_addRoot_addInstance {definition : TypeId} {link : Link} :
    ((relations.addRoot definition).addInstance definition id).Holds link ↔
      relations.Holds link ∨ link = .root definition ∨ link = .application definition id := by
  cases link <;> simp [Holds, addInstance, addRoot, mem_insertNew]

/-- Recording a child and its application records these two links. -/
theorem holds_addChild_addInstance {parent definition : TypeId} {link : Link} :
    ((relations.addChild parent definition).addInstance definition id).Holds link ↔
      relations.Holds link ∨ link = .child parent definition ∨
        link = .application definition id := by
  cases link <;> simp [Holds, addInstance, addChild, mem_insertNew]

/-- A type whose definition is a root demands two links. -/
theorem demands_iff_of_root {link : Link} (hroot : graph.parent? (graph.definitionOf id) = none) :
    graph.Demands id link ↔
      link = .root (graph.definitionOf id) ∨ link = .application (graph.definitionOf id) id := by
  cases link with
  | root definition =>
      simp only [TypeGraph.Demands, Link.root.injEq, reduceCtorEq, or_false]
      constructor
      · intro hdemand
        obtain ⟨rfl, _⟩ := hdemand
        rfl
      · intro heq
        subst heq
        exact ⟨rfl, hroot⟩
  | child parent definition =>
      simp only [TypeGraph.Demands, reduceCtorEq, or_self, iff_false, not_and]
      intro heq hparent
      subst heq
      simp [hroot] at hparent
  | application definition other =>
      simp only [TypeGraph.Demands, Link.application.injEq, reduceCtorEq, false_or]
      exact and_congr_left' eq_comm

/-- A type whose definition is nested demands two links. -/
theorem demands_iff_of_nested {link : Link} {parent : TypeId}
    (hparent : graph.parent? (graph.definitionOf id) = some parent) :
    graph.Demands id link ↔
      link = .child parent (graph.definitionOf id) ∨
        link = .application (graph.definitionOf id) id := by
  cases link with
  | root definition =>
      simp only [TypeGraph.Demands, reduceCtorEq, or_self, iff_false, not_and]
      intro heq hroot
      subst heq
      simp [hparent] at hroot
  | child other definition =>
      simp only [TypeGraph.Demands, Link.child.injEq, reduceCtorEq, or_false]
      constructor
      · intro hdemand
        obtain ⟨rfl, hother⟩ := hdemand
        exact ⟨Option.some.inj (hother.symm.trans hparent), rfl⟩
      · intro hequal
        obtain ⟨rfl, rfl⟩ := hequal
        exact ⟨rfl, hparent⟩
  | application definition other =>
      simp only [TypeGraph.Demands, Link.application.injEq, reduceCtorEq, false_or]
      exact and_congr_left' eq_comm

/-! ## Linking a type -/

/-- The relations when the definition of a claimed type has been linked. -/
def afterDefinition (graph : TypeGraph) (relations : Relations) (id : TypeId) : Relations :=
  if graph.definitionOf id = id then relations.claim id
  else (relations.claim id).link graph (graph.definitionOf id)

/-- A type that is its own definition only has to be claimed. -/
theorem afterDefinition_of_self (h : graph.definitionOf id = id) :
    afterDefinition graph relations id = relations.claim id :=
  if_pos h

/-- A definition that is another type is linked behind the claim. -/
theorem afterDefinition_of_ne (h : graph.definitionOf id ≠ id) :
    afterDefinition graph relations id =
      (relations.claim id).link graph (graph.definitionOf id) :=
  if_neg h

/-- Linking leaves no more types unlinked. -/
theorem length_unlinked_link_le (graph : TypeGraph) (relations : Relations) (id : TypeId) :
    (relations.link graph id).unlinked.length ≤ relations.unlinked.length :=
  (advance graph relations id).2

/-- Linking the definition of a claimed type leaves no more types unlinked. -/
theorem length_unlinked_afterDefinition_le (graph : TypeGraph) (relations : Relations)
    (id : TypeId) :
    (afterDefinition graph relations id).unlinked.length ≤
      (relations.claim id).unlinked.length := by
  unfold afterDefinition
  split
  · exact Nat.le_refl _
  · exact length_unlinked_link_le graph _ _

/-- A type that is linked is passed over. -/
theorem link_of_notMem (h : id ∉ relations.unlinked) : relations.link graph id = relations := by
  unfold link advance
  rw [dif_neg h]

/-- How a type is linked whose definition no type encloses. -/
theorem link_of_root (h : id ∈ relations.unlinked)
    (hroot : graph.parent? (graph.definitionOf id) = none) :
    relations.link graph id =
      ((afterDefinition graph relations id).addRoot (graph.definitionOf id)).addInstance
        (graph.definitionOf id) id := by
  unfold link advance
  rw [dif_pos h]
  simp only [hroot]
  by_cases hself : graph.definitionOf id = id <;> simp [afterDefinition, hself, link]

/-- How a type is linked whose definition is nested. -/
theorem link_of_nested (h : id ∈ relations.unlinked) {parent : TypeId}
    (hparent : graph.parent? (graph.definitionOf id) = some parent) :
    relations.link graph id =
      (((afterDefinition graph relations id).link graph parent).addChild parent
        (graph.definitionOf id)).addInstance (graph.definitionOf id) id := by
  conv_lhs =>
    unfold link advance
  rw [dif_pos h]
  simp only [hparent]
  -- The type of an advance names the state it starts from, so states are rewritten below `link`.
  show (((link _ graph parent).addChild _ _).addInstance _ _) = _
  congr 3
  by_cases hself : graph.definitionOf id = id <;> simp [afterDefinition, hself, link]

/-- The recursion of linking: what holds of a type that is linked already, and of any other type
once it holds of its definition and of the type around that, holds of linking any type. -/
@[elab_as_elim]
theorem link_induction {motive : Relations → TypeId → Relations → Prop}
    (linked : ∀ relations id, id ∉ relations.unlinked → motive relations id relations)
    (root : ∀ relations id, id ∈ relations.unlinked →
      graph.parent? (graph.definitionOf id) = none →
      (graph.definitionOf id ≠ id → motive (relations.claim id) (graph.definitionOf id)
        (afterDefinition graph relations id)) →
      motive relations id
        (((afterDefinition graph relations id).addRoot (graph.definitionOf id)).addInstance
          (graph.definitionOf id) id))
    (nested : ∀ relations id parent, id ∈ relations.unlinked →
      graph.parent? (graph.definitionOf id) = some parent →
      (graph.definitionOf id ≠ id → motive (relations.claim id) (graph.definitionOf id)
        (afterDefinition graph relations id)) →
      motive (afterDefinition graph relations id) parent
        ((afterDefinition graph relations id).link graph parent) →
      motive relations id
        ((((afterDefinition graph relations id).link graph parent).addChild parent
          (graph.definitionOf id)).addInstance (graph.definitionOf id) id))
    (relations : Relations) (id : TypeId) : motive relations id (relations.link graph id) := by
  -- The induction is on the number of unlinked types, of which a claim leaves fewer.
  induction hlength : relations.unlinked.length using Nat.strongRecOn
    generalizing relations id with
  | ind length ih =>
      by_cases hmem : id ∈ relations.unlinked
      case neg =>
        rw [link_of_notMem hmem]
        exact linked relations id hmem
      case pos =>
        have hless : (relations.claim id).unlinked.length < length :=
          hlength ▸ length_claim_lt hmem
        have hdefinition : graph.definitionOf id ≠ id → motive (relations.claim id)
            (graph.definitionOf id) (afterDefinition graph relations id) := by
          intro hother
          rw [afterDefinition_of_ne hother]
          exact ih _ hless _ _ rfl
        cases hparent : graph.parent? (graph.definitionOf id) with
        | none =>
            rw [link_of_root hmem hparent]
            exact root relations id hmem hparent hdefinition
        | some parent =>
            have hle := length_unlinked_afterDefinition_le graph relations id
            rw [link_of_nested hmem hparent]
            exact nested relations id parent hmem hparent hdefinition
              (ih _ (Nat.lt_of_le_of_lt hle hless) _ _ rfl)

/-- A claimed type that has all it needs linked is linked by recording what it demands. -/
theorem Linking.of_claim (hmem : id ∈ before.unlinked) (hnodup : before.unlinked.Nodup)
    (hmiddle : Linking graph (before.claim id) middle)
    (hneeds : ∀ {other}, graph.Needs id other → other ∉ middle.unlinked)
    (hunlinked : after.unlinked = middle.unlinked)
    (hholds : ∀ link, after.Holds link ↔ middle.Holds link ∨ graph.Demands id link)
    (hdistinct : middle.Distinct → after.Distinct) :
    Linking graph before after ∧ id ∉ after.unlinked := by
  have hclaim : (before.claim id).unlinked.Sublist before.unlinked := List.erase_sublist
  have hid : id ∉ after.unlinked := by
    rw [hunlinked]
    exact fun h => hnodup.not_mem_erase (hmiddle.unlinked_sublist.subset h)
  have hbetween : ∀ other, LinkedBetween before after other ↔
      other = id ∨ LinkedBetween (before.claim id) middle other := by
    intro other
    by_cases hother : other = id
    · simp [hother, LinkedBetween, hmem, hid]
    · simp [LinkedBetween, claim, hother, hunlinked, hnodup.mem_erase_iff]
  refine ⟨?_, hid⟩
  constructor
  case unlinked_sublist => exact hunlinked ▸ hmiddle.unlinked_sublist.trans hclaim
  case holds_iff =>
    intro link
    simp only [hholds link, hmiddle.holds_iff link, holds_claim, hbetween, or_and_right, exists_or,
      exists_eq_left, or_assoc]
    exact or_congr_right or_comm
  case needs =>
    intro other needed hother hneeded
    rw [hunlinked]
    rcases (hbetween other).mp hother with rfl | hearly
    · exact hneeds hneeded
    · exact hmiddle.needs hearly hneeded
  case distinct =>
    exact fun h => hdistinct (hmiddle.distinct ⟨h.roots, h.children, h.instances⟩)

/-- Behind a claim, the definition is linked with exactly its links recorded, be it the claimed type
itself or one that is linked next. -/
theorem linking_afterDefinition (hnodup : relations.unlinked.Nodup)
    (h : graph.definitionOf id ≠ id → (relations.claim id).unlinked.Nodup →
      Linking graph (relations.claim id) (afterDefinition graph relations id) ∧
        graph.definitionOf id ∉ (afterDefinition graph relations id).unlinked) :
    Linking graph (relations.claim id) (afterDefinition graph relations id) ∧
      graph.definitionOf id ∉ (afterDefinition graph relations id).unlinked := by
  by_cases hself : graph.definitionOf id = id
  · rw [afterDefinition_of_self hself, hself]
    exact ⟨Linking.refl _ _, hnodup.not_mem_erase⟩
  · exact h hself (hnodup.erase id)

/-- Linking a type records exactly the links of the types linked meanwhile, itself included. -/
theorem linking_link (graph : TypeGraph) (relations : Relations) (id : TypeId)
    (hnodup : relations.unlinked.Nodup) :
    Linking graph relations (relations.link graph id) ∧
      id ∉ (relations.link graph id).unlinked := by
  induction relations, id using @link_induction graph with
  | linked relations id hmem => exact ⟨Linking.refl graph relations, hmem⟩
  | root relations id hmem hparent ih =>
      obtain ⟨hdefinition, hlinked⟩ := linking_afterDefinition hnodup ih
      refine Linking.of_claim hmem hnodup hdefinition ?_ rfl ?_ ?_
      · intro other hcases
        rcases hcases with rfl | hother
        · exact hlinked
        · simp [hparent] at hother
      · intro link
        rw [holds_addRoot_addInstance, demands_iff_of_root hparent]
      · exact fun h => ⟨nodup_insertNew h.roots, h.children, nodup_insertNew h.instances⟩
  | nested relations id parent hmem hparent ih ihParent =>
      obtain ⟨hdefinition, hlinked⟩ := linking_afterDefinition hnodup ih
      obtain ⟨hafter, hparentLinked⟩ :=
        ihParent (hdefinition.unlinked_sublist.nodup (hnodup.erase id))
      refine Linking.of_claim hmem hnodup (hdefinition.trans hafter) ?_ rfl ?_ ?_
      · intro other hcases
        -- What has been linked stays so while the enclosing type is linked.
        rcases hcases with rfl | hother
        · exact fun h => hlinked (hafter.unlinked_sublist.subset h)
        · exact Option.some.inj (hparent.symm.trans hother) ▸ hparentLinked
      · intro link
        rw [holds_addChild_addInstance, demands_iff_of_nested hparent]
      · exact fun h => ⟨h.roots, nodup_insertNew h.children, nodup_insertNew h.instances⟩

/-- Links types one after another. -/
def linkAll (graph : TypeGraph) (relations : Relations) (ids : List TypeId) : Relations :=
  ids.foldl (fun relations id => relations.link graph id) relations

/-- Linking more types goes on behind the first ones. -/
theorem linkAll_append (graph : TypeGraph) (relations : Relations) (ids more : List TypeId) :
    relations.linkAll graph (ids ++ more) = (relations.linkAll graph ids).linkAll graph more :=
  List.foldl_append

/-- Linking types records exactly the links of the types linked meanwhile, themselves included. -/
theorem linking_linkAll (graph : TypeGraph) (relations : Relations) (ids : List TypeId)
    (hnodup : relations.unlinked.Nodup) :
    Linking graph relations (relations.linkAll graph ids) ∧
      ∀ id ∈ ids, id ∉ (relations.linkAll graph ids).unlinked := by
  induction ids generalizing relations with
  | nil => exact ⟨Linking.refl _ _, nofun⟩
  | cons id ids ih =>
      obtain ⟨hlink, hlinked⟩ := linking_link graph relations id hnodup
      obtain ⟨hlater, hall⟩ := ih (relations.link graph id) (hlink.unlinked_sublist.nodup hnodup)
      refine ⟨hlink.trans hlater, List.forall_mem_cons.mpr ⟨?_, hall⟩⟩
      exact fun h => hlinked (hlater.unlinked_sublist.subset h)

/-- What each single record keeps, linking keeps. -/
theorem link_invariant {kept : Relations → Prop}
    (hclaim : ∀ relations id, kept relations → kept (relations.claim id))
    (hroot : ∀ relations definition, kept relations → kept (relations.addRoot definition))
    (hchild : ∀ relations parent definition, kept relations →
      kept (relations.addChild parent definition))
    (hinstance : ∀ relations definition id, kept relations →
      kept (relations.addInstance definition id))
    (h : kept relations) (id : TypeId) : kept (relations.link graph id) := by
  have hafter : ∀ {relations id}, kept relations →
      (graph.definitionOf id ≠ id → kept (relations.claim id) →
        kept (afterDefinition graph relations id)) → kept (afterDefinition graph relations id) := by
    intro relations id h ih
    by_cases hself : graph.definitionOf id = id
    · rw [afterDefinition_of_self hself]
      exact hclaim _ _ h
    · exact ih hself (hclaim _ _ h)
  induction relations, id using @link_induction graph with
  | linked => exact h
  | root _ _ _ _ ih => exact hinstance _ _ _ (hroot _ _ (hafter h ih))
  | nested _ _ _ _ _ ih ihParent =>
      exact hinstance _ _ _ (hchild _ _ _ (ihParent (hafter h ih)))

/-- Roots stay in front of those that are recorded later. -/
theorem roots_prefix_linkAll (graph : TypeGraph) (relations : Relations) (ids : List TypeId) :
    relations.roots <+: (relations.linkAll graph ids).roots := by
  have hinsert : ∀ (definition : TypeId) (roots : List TypeId),
      roots <+: insertNew definition roots := by
    intro definition roots
    unfold insertNew
    split
    · exact List.prefix_rfl
    · exact List.prefix_append _ _
  induction ids generalizing relations with
  | nil => exact List.prefix_rfl
  | cons id ids ih =>
      have hlink : relations.roots <+: (relations.link graph id).roots :=
        @link_invariant graph relations (fun reached => relations.roots <+: reached.roots)
          (fun _ _ h => h) (fun _ definition h => h.trans (hinsert definition _))
          (fun _ _ _ h => h) (fun _ _ _ h => h) List.prefix_rfl id
      exact hlink.trans (ih _)

/-! ## Relations that are consistent with their graph -/

/-- A type of the graph has been linked. -/
def Linked (graph : TypeGraph) (relations : Relations) (id : TypeId) : Prop :=
  id < graph.size ∧ id ∉ relations.unlinked

/-- Exactly the links of the linked types are recorded, once each, and a type is linked along with
what it needs. -/
structure Consistent (graph : TypeGraph) (relations : Relations) : Prop where
  holds_iff : ∀ link, relations.Holds link ↔ ∃ id, relations.Linked graph id ∧ graph.Demands id link
  needs : ∀ {id other}, relations.Linked graph id → graph.Needs id other →
    relations.Linked graph other
  distinct : relations.Distinct

/-- Whatever has been linked from scratch is consistent with the graph. -/
theorem Linking.consistent (hgraph : graph.WellFormed)
    (h : Linking graph (initial graph) relations) : relations.Consistent graph := by
  have hlinked : ∀ id, LinkedBetween (initial graph) relations id ↔ relations.Linked graph id := by
    intro id
    simp [LinkedBetween, Linked, initial]
  constructor
  case holds_iff =>
    intro link
    have hnone : ¬ (initial graph).Holds link := by cases link <;> simp [Holds, initial]
    simp only [h.holds_iff link, hnone, false_or, hlinked]
  case needs =>
    intro id other hid hneeds
    exact ⟨hgraph.needs_lt hid.1 hneeds, h.needs ((hlinked id).mpr hid) hneeds⟩
  case distinct => exact h.distinct ⟨List.nodup_nil, List.nodup_nil, List.nodup_nil⟩

/-- The entries of a type are the second components of its pairs. -/
theorem mem_related {pairs : List (TypeId × TypeId)} {other : TypeId} :
    other ∈ related pairs id ↔ (id, other) ∈ pairs := by
  simp [related]

/-- A type has no entry twice. -/
theorem nodup_related {pairs : List (TypeId × TypeId)} (h : pairs.Nodup) :
    (related pairs id).Nodup := by
  refine List.Nodup.map_on ?_ (h.filter _)
  intro entry hfirst twin hsecond heq
  obtain ⟨first, other⟩ := entry
  obtain ⟨second, another⟩ := twin
  simp only [List.mem_filter, decide_eq_true_eq] at hfirst hsecond
  rw [Prod.mk.injEq]
  exact ⟨hfirst.2.trans hsecond.2.symm, heq⟩

namespace Consistent

variable {definition parent : TypeId}

/-- The instances of a definition are the linked types that apply it. -/
theorem mem_instancesOf_iff (h : relations.Consistent graph) :
    id ∈ relations.instancesOf definition ↔
      relations.Linked graph id ∧ graph.definitionOf id = definition := by
  rw [instancesOf, mem_related]
  refine (h.holds_iff (.application definition id)).trans ⟨?_, ?_⟩
  · intro happlication
    obtain ⟨other, hother, hdefinition, rfl⟩ := happlication
    exact ⟨hother, hdefinition⟩
  · intro hinstance
    obtain ⟨hid, hdefinition⟩ := hinstance
    exact ⟨id, hid, hdefinition, rfl⟩

/-- A definition is recorded somewhere exactly if it has instances. -/
theorem instancesOf_ne_nil_iff (h : relations.Consistent graph) :
    relations.instancesOf definition ≠ [] ↔
      ∃ id, relations.Linked graph id ∧ graph.definitionOf id = definition := by
  simp [List.eq_nil_iff_forall_not_mem, h.mem_instancesOf_iff]

/-- The roots are the definitions with instances that no type encloses. -/
theorem mem_roots_iff (h : relations.Consistent graph) :
    definition ∈ relations.roots ↔
      graph.parent? definition = none ∧ relations.instancesOf definition ≠ [] := by
  rw [h.instancesOf_ne_nil_iff]
  refine (h.holds_iff (.root definition)).trans ⟨?_, ?_⟩
  · intro hlinked
    obtain ⟨id, hid, hdefinition, hroot⟩ := hlinked
    exact ⟨hroot, id, hid, hdefinition⟩
  · intro hroots
    obtain ⟨hroot, id, hid, hdefinition⟩ := hroots
    exact ⟨id, hid, hdefinition, hroot⟩

/-- The children of a type are the definitions with instances that it encloses. -/
theorem mem_childrenOf_iff (h : relations.Consistent graph) :
    definition ∈ relations.childrenOf parent ↔
      graph.Encloses parent definition ∧ relations.instancesOf definition ≠ [] := by
  rw [h.instancesOf_ne_nil_iff, childrenOf, mem_related]
  refine (h.holds_iff (.child parent definition)).trans ⟨?_, ?_⟩
  · intro hlinked
    obtain ⟨id, hid, hdefinition, hparent⟩ := hlinked
    exact ⟨hparent, id, hid, hdefinition⟩
  · intro hchildren
    obtain ⟨hparent, id, hid, hdefinition⟩ := hchildren
    exact ⟨id, hid, hdefinition, hparent⟩

/-- Linking a type that applies a linked definition records no root. -/
theorem roots_link (h : relations.Consistent graph)
    (hlinked : relations.Linked graph (graph.definitionOf id))
    (hself : graph.definitionOf (graph.definitionOf id) = graph.definitionOf id) :
    (relations.link graph id).roots = relations.roots := by
  by_cases hmem : id ∈ relations.unlinked
  case neg => rw [link_of_notMem hmem]
  case pos =>
    have hafter : afterDefinition graph relations id = relations.claim id := by
      unfold afterDefinition
      split
      · rfl
      · exact link_of_notMem fun hclaimed => hlinked.2 (List.mem_of_mem_erase hclaimed)
    cases hparent : graph.parent? (graph.definitionOf id) with
    | none =>
        rw [link_of_root hmem hparent, hafter]
        have hroot : graph.definitionOf id ∈ relations.roots :=
          h.mem_roots_iff.mpr ⟨hparent, h.instancesOf_ne_nil_iff.mpr ⟨_, hlinked, hself⟩⟩
        exact if_pos hroot
    | some parent =>
        rw [link_of_nested hmem hparent, hafter]
        have houter := h.needs hlinked (Or.inr (by rwa [hself]))
        rw [link_of_notMem fun hclaimed => houter.2 (List.mem_of_mem_erase hclaimed)]
        rfl

end Consistent

/-- Linking types that apply linked definitions records no root. -/
theorem Linking.roots_linkAll (hgraph : graph.WellFormed)
    (h : Linking graph (initial graph) relations) {ids : List TypeId}
    (hids : ∀ id ∈ ids, relations.Linked graph (graph.definitionOf id) ∧
      graph.definitionOf (graph.definitionOf id) = graph.definitionOf id) :
    (relations.linkAll graph ids).roots = relations.roots := by
  induction ids generalizing relations with
  | nil => rfl
  | cons id ids ih =>
      obtain ⟨hid, hrest⟩ := List.forall_mem_cons.mp hids
      have hnodup : relations.unlinked.Nodup := h.unlinked_sublist.nodup List.nodup_range
      obtain ⟨hlink, _⟩ := linking_link graph relations id hnodup
      have hlater := ih (h.trans hlink) fun other hother => by
        obtain ⟨⟨hlt, hlinked⟩, hself⟩ := hrest other hother
        exact ⟨⟨hlt, fun hmem => hlinked (hlink.unlinked_sublist.subset hmem)⟩, hself⟩
      exact hlater.trans ((h.consistent hgraph).roots_link hid.1 hid.2)

end Relations

end RadioBroker
