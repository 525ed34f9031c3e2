import Mathlib.Data.Set.List
import RadioBroker.Proofs.ServiceModel.Inclusion
import RadioBroker.Proofs.ServiceModel.Namespaces
import RadioBroker.Proofs.TypeGraph.Embedding

/-!
# Links in the components of a graph

What is linked in a component of a graph is linked there as in a graph of its own, and whatever is
linked elsewhere leaves it alone. The relations of the whole therefore mirror those of the
component: the same definitions are recorded in the same order, each in its place.
-/

namespace RadioBroker

open TypeGraph

/-! ## Insertions -/

namespace Relations

section

variable {α β : Type} [DecidableEq α] [DecidableEq β] {entry : α} {entries : List α}

/-- Entries that are told apart are inserted as their images are. -/
theorem map_insertNew {image : α → β} (himage : Function.Injective image) :
    (insertNew entry entries).map image = insertNew (image entry) (entries.map image) := by
  unfold insertNew
  by_cases hmem : entry ∈ entries
  · rw [if_pos hmem, if_pos (List.mem_map_of_mem hmem)]
  · rw [if_neg hmem, if_neg (mt (List.mem_map_of_injective himage).mp hmem), List.map_append,
      List.map_singleton]

end

/-- Inserting a pair inserts its second component among those of its first one. -/
theorem related_insertNew {pairs : List (TypeId × TypeId)} {first second id : TypeId} :
    related (insertNew (first, second) pairs) id =
      if first = id then insertNew second (related pairs id) else related pairs id := by
  split
  · rename_i hfirst
    subst hfirst
    unfold insertNew
    by_cases hmem : (first, second) ∈ pairs
    · rw [if_pos hmem, if_pos (mem_related.mpr hmem)]
    · rw [if_neg hmem, if_neg (mt mem_related.mp hmem)]
      simp [related]
  · rename_i hfirst
    rw [related, filter_insertNew_of_neg (fun pair : TypeId × TypeId => pair.1 = id)
      (decide_eq_false hfirst), related]

/-! ## Relations that mirror those of a component -/

variable {graph part whole : TypeGraph} {place : TypeId ↪o TypeId} {relations mirror : Relations}
  {id definition parent : TypeId}

open Classical in
/-- Whether a type stands in a place. -/
noncomputable def isPlaced (place : TypeId ↪o TypeId) (id : TypeId) : Bool :=
  decide (id ∈ Set.range place)

/-- A type stands in a place if it is the place of a type. -/
theorem isPlaced_iff : isPlaced place id = true ↔ id ∈ Set.range place := by
  simp only [isPlaced, decide_eq_true_eq]

/-- A place is one. -/
@[simp] theorem isPlaced_place (place : TypeId ↪o TypeId) (id : TypeId) :
    isPlaced place (place id) = true :=
  isPlaced_iff.mpr (Set.mem_range_self id)

/-- The relations of a whole record for a component what is recorded for it alone. -/
structure Mirrors (place : TypeId ↪o TypeId) (relations mirror : Relations) : Prop where
  nodup : relations.unlinked.Nodup
  mirrorNodup : mirror.unlinked.Nodup
  unlinked : ∀ id, place id ∈ mirror.unlinked ↔ id ∈ relations.unlinked
  roots : mirror.roots.filter (isPlaced place) = relations.roots.map place
  children : ∀ id, mirror.childrenOf (place id) = (relations.childrenOf id).map place
  instances : ∀ id, mirror.instancesOf (place id) = (relations.instancesOf id).map place

namespace Mirrors

/-- Claiming a type is mirrored by claiming it in its place. -/
theorem claim (h : Mirrors place relations mirror) (id : TypeId) :
    Mirrors place (relations.claim id) (mirror.claim (place id)) where
  nodup := h.nodup.erase id
  mirrorNodup := h.mirrorNodup.erase (place id)
  unlinked other := by
    simp only [Relations.claim]
    rw [h.mirrorNodup.mem_erase_iff, h.nodup.mem_erase_iff, h.unlinked, place.injective.ne_iff]
  roots := h.roots
  children := h.children
  instances := h.instances

/-- Claiming a type elsewhere is not mirrored. -/
theorem claim_other (h : Mirrors place relations mirror) (hid : id ∉ Set.range place) :
    Mirrors place relations (mirror.claim id) where
  nodup := h.nodup
  mirrorNodup := h.mirrorNodup.erase id
  unlinked other := by
    have hne : place other ≠ id := fun heq => hid ⟨other, heq⟩
    rw [← h.unlinked]
    exact List.mem_erase_of_ne hne
  roots := h.roots
  children := h.children
  instances := h.instances

/-- Recording a root is mirrored by recording it in its place. -/
theorem addRoot (h : Mirrors place relations mirror) (definition : TypeId) :
    Mirrors place (relations.addRoot definition) (mirror.addRoot (place definition)) where
  nodup := h.nodup
  mirrorNodup := h.mirrorNodup
  unlinked := h.unlinked
  roots := by
    simp only [Relations.addRoot]
    rw [filter_insertNew_of_pos (isPlaced place) (isPlaced_place place definition), h.roots,
      map_insertNew place.injective]
  children := h.children
  instances := h.instances

/-- Recording a root elsewhere is not mirrored. -/
theorem addRoot_other (h : Mirrors place relations mirror) (hid : definition ∉ Set.range place) :
    Mirrors place relations (mirror.addRoot definition) where
  nodup := h.nodup
  mirrorNodup := h.mirrorNodup
  unlinked := h.unlinked
  roots := by
    have hnot : isPlaced place definition = false := by rwa [← Bool.not_eq_true, isPlaced_iff]
    simp only [Relations.addRoot]
    rw [filter_insertNew_of_neg (isPlaced place) hnot, h.roots]
  children := h.children
  instances := h.instances

/-- Pairs that are mirrored stay mirrored when one is inserted in its place. -/
theorem related_place {pairs mirrored : List (TypeId × TypeId)}
    (h : ∀ id, related mirrored (place id) = (related pairs id).map place)
    (first second id : TypeId) :
    related (insertNew (place first, place second) mirrored) (place id) =
      (related (insertNew (first, second) pairs) id).map place := by
  rw [related_insertNew, related_insertNew, h]
  simp only [place.injective.eq_iff]
  split
  · rw [map_insertNew place.injective]
  · rfl

/-- Pairs that are mirrored stay mirrored when one is inserted elsewhere. -/
theorem related_other {pairs mirrored : List (TypeId × TypeId)}
    (h : ∀ id, related mirrored (place id) = (related pairs id).map place) {first : TypeId}
    (hfirst : first ∉ Set.range place) (second id : TypeId) :
    related (insertNew (first, second) mirrored) (place id) = (related pairs id).map place := by
  rw [related_insertNew, if_neg fun heq => hfirst ⟨id, heq.symm⟩, h]

/-- Recording a child is mirrored by recording it in its place. -/
theorem addChild (h : Mirrors place relations mirror) (parent definition : TypeId) :
    Mirrors place (relations.addChild parent definition)
      (mirror.addChild (place parent) (place definition)) where
  nodup := h.nodup
  mirrorNodup := h.mirrorNodup
  unlinked := h.unlinked
  roots := h.roots
  children := related_place h.children parent definition
  instances := h.instances

/-- Recording a child elsewhere is not mirrored. -/
theorem addChild_other (h : Mirrors place relations mirror) (hparent : parent ∉ Set.range place)
    (definition : TypeId) : Mirrors place relations (mirror.addChild parent definition) where
  nodup := h.nodup
  mirrorNodup := h.mirrorNodup
  unlinked := h.unlinked
  roots := h.roots
  children := related_other h.children hparent definition
  instances := h.instances

/-- Recording an instance is mirrored by recording it in its place. -/
theorem addInstance (h : Mirrors place relations mirror) (definition id : TypeId) :
    Mirrors place (relations.addInstance definition id)
      (mirror.addInstance (place definition) (place id)) where
  nodup := h.nodup
  mirrorNodup := h.mirrorNodup
  unlinked := h.unlinked
  roots := h.roots
  children := h.children
  instances := related_place h.instances definition id

/-- Recording an instance elsewhere is not mirrored. -/
theorem addInstance_other (h : Mirrors place relations mirror)
    (hdefinition : definition ∉ Set.range place) (id : TypeId) :
    Mirrors place relations (mirror.addInstance definition id) where
  nodup := h.nodup
  mirrorNodup := h.mirrorNodup
  unlinked := h.unlinked
  roots := h.roots
  children := h.children
  instances := related_other h.instances hdefinition id

/-! ## Linking -/

/-- Linking a type is mirrored by linking it in its place. -/
theorem link (h : Mirrors place relations mirror) (hcomponent : Component part whole place)
    (id : TypeId) : Mirrors place (relations.link part id) (mirror.link whole (place id)) := by
  have hafter : ∀ {relations mirror id}, Mirrors place relations mirror →
      (part.definitionOf id ≠ id → ∀ {mirror}, Mirrors place (relations.claim id) mirror →
        Mirrors place (afterDefinition part relations id)
          (mirror.link whole (place (part.definitionOf id)))) →
      Mirrors place (afterDefinition part relations id)
        (afterDefinition whole mirror (place id)) := by
    intro relations mirror id h ih
    have hdefinition := hcomponent.definitionOf_place id
    by_cases hself : part.definitionOf id = id
    · rw [afterDefinition_of_self hself, afterDefinition_of_self (by rw [hdefinition, hself])]
      exact h.claim id
    · have hother : whole.definitionOf (place id) ≠ place id := by
        rwa [hdefinition, place.injective.ne_iff]
      rw [afterDefinition_of_ne hother, hdefinition]
      exact ih hself (h.claim id)
  induction relations, id using @link_induction part generalizing mirror with
  | linked relations id hmem => rwa [link_of_notMem (mt (h.unlinked id).mp hmem)]
  | root relations id hmem hparent ih =>
      have hplacedParent : whole.parent? (whole.definitionOf (place id)) = none := by
        rw [hcomponent.definitionOf_place, hcomponent.parent?_place, hparent, Option.map_none]
      rw [link_of_root ((h.unlinked id).mpr hmem) hplacedParent, hcomponent.definitionOf_place]
      exact ((hafter h ih).addRoot _).addInstance _ _
  | nested relations id parent hmem hparent ih ihParent =>
      have hplacedParent : whole.parent? (whole.definitionOf (place id)) = some (place parent) := by
        rw [hcomponent.definitionOf_place, hcomponent.parent?_place, hparent, Option.map_some]
      rw [link_of_nested ((h.unlinked id).mpr hmem) hplacedParent, hcomponent.definitionOf_place]
      exact ((ihParent (hafter h ih)).addChild _ _).addInstance _ _

/-- Linking a type elsewhere is not mirrored. -/
theorem link_other (h : Mirrors place relations mirror) (hcomponent : Component part whole place)
    (hid : id ∉ Set.range place) : Mirrors place relations (mirror.link whole id) := by
  have hafter : ∀ {mirror id}, Mirrors place relations mirror → id ∉ Set.range place →
      (whole.definitionOf id ≠ id → Mirrors place relations (mirror.claim id) →
        whole.definitionOf id ∉ Set.range place →
        Mirrors place relations (afterDefinition whole mirror id)) →
      Mirrors place relations (afterDefinition whole mirror id) := by
    intro mirror id h hid ih
    by_cases hself : whole.definitionOf id = id
    · rw [afterDefinition_of_self hself]
      exact h.claim_other hid
    · exact ih hself (h.claim_other hid) (mt hcomponent.definition_mem hid)
  induction mirror, id using @link_induction whole with
  | linked => exact h
  | root mirror id hmem hparent ih =>
      have hdefinition := mt hcomponent.definition_mem hid
      exact ((hafter h hid ih).addRoot_other hdefinition).addInstance_other hdefinition id
  | nested mirror id parent hmem hparent ih ihParent =>
      have hdefinition := mt hcomponent.definition_mem hid
      have houter := mt (hcomponent.parent_mem hparent) hdefinition
      exact ((ihParent (hafter h hid ih) houter).addChild_other houter _).addInstance_other
        hdefinition id

/-- Where nothing is linked, nothing is linked in a component. -/
theorem initial (h : Embeds part whole place) :
    Mirrors place (Relations.initial part) (Relations.initial whole) where
  nodup := List.nodup_range
  mirrorNodup := List.nodup_range
  unlinked _ := mem_ids.trans (h.place_lt_iff.trans mem_ids.symm)
  roots := rfl
  children _ := rfl
  instances _ := rfl

/-- Linking types is mirrored by linking them in their places, between types that stand
elsewhere. -/
theorem linkAll (h : Mirrors place relations mirror) (hcomponent : Component part whole place)
    {ids placed : List TypeId} (hplaced : placed.filter (isPlaced place) = ids.map place) :
    Mirrors place (relations.linkAll part ids) (mirror.linkAll whole placed) := by
  induction placed generalizing relations mirror ids with
  | nil =>
      rw [List.filter_nil, eq_comm, List.map_eq_nil_iff] at hplaced
      rwa [hplaced]
  | cons other placed ih =>
      by_cases hother : isPlaced place other = true
      · rw [List.filter_cons_of_pos hother, eq_comm, List.map_eq_cons_iff] at hplaced
        obtain ⟨id, ids, rfl, rfl, hrest⟩ := hplaced
        exact ih (h.link hcomponent id) hrest.symm
      · rw [List.filter_cons_of_neg hother] at hplaced
        exact ih (h.link_other hcomponent (mt isPlaced_iff.mpr hother)) hplaced

end Mirrors

/-! ## Two components -/

variable {left right : TypeGraph} {otherPlace : TypeId ↪o TypeId}
  {early middle late leftIds rightIds : List TypeId}

/-- Types that stand in the other component do not stand in this one. -/
theorem filter_isPlaced_eq_nil (hsplits : Splits left right whole place otherPlace)
    {ids : List TypeId} (hlt : ∀ id ∈ ids, id < whole.size)
    (hids : ∀ id ∈ ids, id ∈ Set.range otherPlace) : ids.filter (isPlaced place) = [] := by
  refine List.filter_eq_nil_iff.mpr fun id hid hplaced => ?_
  exact hsplits.disjoint id (hlt id hid) (isPlaced_iff.mp hplaced) (hids id hid)

/-- The types of a list that stand in places are the places of types. -/
theorem exists_filter_isPlaced (place : TypeId ↪o TypeId) (placed : List TypeId) :
    ∃ ids : List TypeId, placed.filter (isPlaced place) = ids.map place := by
  have hrange : placed.filter (isPlaced place) ∈ Set.range (List.map place) := by
    rw [Set.range_list_map]
    exact fun id hid => isPlaced_iff.mp (List.mem_filter.mp hid).2
  obtain ⟨ids, hids⟩ := hrange
  exact ⟨ids, hids.symm⟩

/-- A list whose front fails one test and whose end fails the other one, of which every entry passes
one, is sorted by them. -/
theorem append_eq_filter_append_filter {before added : List TypeId} {first second : TypeId → Bool}
    (hcover : ∀ id ∈ before ++ added, first id = true ∨ second id = true)
    (hbefore : before.filter second = []) (hadded : added.filter first = []) :
    before ++ added = (before ++ added).filter first ++ (before ++ added).filter second := by
  have hfirst : before.filter first = before := by
    refine List.filter_eq_self.mpr fun id hid => ?_
    have hnot := List.filter_eq_nil_iff.mp hbefore id hid
    exact (hcover id (List.mem_append_left _ hid)).resolve_right hnot
  have hsecond : added.filter second = added := by
    refine List.filter_eq_self.mpr fun id hid => ?_
    have hnot := List.filter_eq_nil_iff.mp hadded id hid
    exact (hcover id (List.mem_append_right _ hid)).resolve_left hnot
  rw [List.filter_append, List.filter_append, hfirst, hadded, hbefore, hsecond, List.append_nil,
    List.nil_append]

/-- If the types of one component are linked in front of those of the other one, and behind both
only types that apply linked definitions, the roots of the one component are in front of those of
the other one. -/
theorem roots_linkAll_of_splits (hsplits : Splits left right whole place otherPlace)
    (hearly : ∀ id ∈ early, id < whole.size ∧ id ∈ Set.range place)
    (hmiddle : ∀ id ∈ middle, id < whole.size ∧ id ∈ Set.range otherPlace)
    (hlate : ∀ id ∈ late, id < whole.size ∧ whole.definitionOf id ∈ early ++ middle ∧
      whole.definitionOf (whole.definitionOf id) = whole.definitionOf id)
    (hleft : (early ++ middle ++ late).filter (isPlaced place) = leftIds.map place)
    (hright : (early ++ middle ++ late).filter (isPlaced otherPlace) = rightIds.map otherPlace) :
    ((initial whole).linkAll whole (early ++ middle ++ late)).roots =
      ((initial left).linkAll left leftIds).roots.map place ++
        ((initial right).linkAll right rightIds).roots.map otherPlace := by
  have hwhole := hsplits.left.otherNamed.toWellFormed
  have hcomponent := hsplits.component
  have hother := hsplits.symm.component
  have hstart : Mirrors place (initial left) (initial whole) := .initial hsplits.left
  have hotherStart : Mirrors otherPlace (initial right) (initial whole) := .initial hsplits.right
  obtain ⟨hlinking, hlinked⟩ :=
    linking_linkAll whole (initial whole) (early ++ middle) List.nodup_range
  have hconsistent := hlinking.consistent hwhole
  rw [← (hstart.linkAll hcomponent hleft).roots, ← (hotherStart.linkAll hother hright).roots,
    linkAll_append]
  -- What is linked last records no root.
  have hroots := @Linking.roots_linkAll whole _ hwhole hlinking late fun id hid => by
    obtain ⟨hlt, hdefinition, hself⟩ := hlate id hid
    exact ⟨⟨hwhole.definition_lt hlt, hlinked _ hdefinition⟩, hself⟩
  rw [hroots]
  -- The roots of the other component are not recorded while the one component is linked.
  have hnone : ((initial whole).linkAll whole early).roots.filter (isPlaced otherPlace) = [] := by
    have hids : early.filter (isPlaced otherPlace) = [].map otherPlace :=
      filter_isPlaced_eq_nil hsplits.symm (fun id hid => (hearly id hid).1)
        fun id hid => (hearly id hid).2
    exact (hotherStart.linkAll hother hids).roots
  obtain ⟨added, hadded⟩ := roots_prefix_linkAll whole ((initial whole).linkAll whole early) middle
  rw [← linkAll_append] at hadded
  have hlater : added.filter (isPlaced place) = [] := by
    obtain ⟨earlyIds, hids⟩ := exists_filter_isPlaced place early
    have hnothing : middle.filter (isPlaced place) = [].map place :=
      filter_isPlaced_eq_nil hsplits (fun id hid => (hmiddle id hid).1)
        fun id hid => (hmiddle id hid).2
    have hfirst := hstart.linkAll hcomponent hids
    have hsecond := (hfirst.linkAll hcomponent hnothing).roots
    rw [← linkAll_append, ← hadded, List.filter_append, hfirst.roots] at hsecond
    exact List.append_right_eq_self.mp hsecond
  rw [← hadded]
  refine append_eq_filter_append_filter (fun id hid => ?_) hnone hlater
  rw [hadded] at hid
  obtain ⟨_, hinstances⟩ := hconsistent.mem_roots_iff.mp hid
  obtain ⟨linked, ⟨hlt, _⟩, rfl⟩ := hconsistent.instancesOf_ne_nil_iff.mp hinstances
  rw [isPlaced_iff, isPlaced_iff]
  exact hsplits.cover _ (hwhole.definition_lt hlt)

end Relations

end RadioBroker
