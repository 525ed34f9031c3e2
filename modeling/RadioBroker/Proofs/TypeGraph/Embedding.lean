import Mathlib.Data.List.NodupEquivFin
import Mathlib.Order.WellFounded
import RadioBroker.Proofs.TypeGraph.Inclusion
import RadioBroker.Proofs.TypeGraph.Joining

/-!
# Components of a graph

A component of a graph is a graph of its own whose types stand in the whole in the same order, not
necessarily next to each other. What encloses a type of the component and what it applies is in the
component, and nothing else has to do with these types. Two lists of independent declarations are
built into a graph with two components.
-/

namespace RadioBroker.TypeGraph

variable {part whole left right : TypeGraph} {place : TypeId ↪o TypeId} {id : TypeId}
  {declaration : Declaration}

/-! ## Types in their places -/

/-- The types of a graph stand in another one, in order. -/
structure Embeds (part whole : TypeGraph) (place : TypeId ↪o TypeId) : Prop
    extends Inclusion part whole where
  getElem?_place : ∀ id, part.declarations[id]? = whole.declarations[place id]?

namespace Embeds

/-- Exactly the types of the part have places in the whole. -/
theorem place_lt_iff (h : Embeds part whole place) : place id < whole.size ↔ id < part.size := by
  have hnone : whole.size ≤ place id ↔ part.size ≤ id := by
    rw [← length_declarations, ← length_declarations, ← List.getElem?_eq_none_iff,
      ← List.getElem?_eq_none_iff, h.getElem?_place]
  rwa [← not_le, ← not_le, not_iff_not]

/-- A part has at most as many types as the whole. -/
theorem size_le (h : Embeds part whole place) : part.size ≤ whole.size := by
  by_contra hless
  have hplace := h.place_lt_iff.mpr (Nat.lt_of_not_le hless)
  exact Nat.not_le_of_lt hplace (StrictMono.le_apply place.strictMono)

/-- A type is the twin of the one that stands in its place. -/
theorem twins (h : Embeds part whole place) (hid : id < part.size) :
    Twins part whole id (place id) := by
  obtain ⟨node, hnode⟩ := exists_node_iff.mpr hid
  obtain ⟨placed, hplaced⟩ := exists_node_iff.mpr (h.place_lt_iff.mpr hid)
  have hsame := h.getElem?_place id
  rw [declarations, declarations, List.getElem?_map, List.getElem?_map,
    show part.nodes[id]? = _ from hnode, show whole.nodes[place id]? = _ from hplaced] at hsame
  exact ⟨node, placed, hnode, hplaced, Option.some.inj hsame⟩

/-- What encloses a type encloses it in its place. -/
theorem parent?_place (h : Embeds part whole place) (id : TypeId) :
    whole.parent? (place id) = (part.parent? id).map place := by
  by_cases hid : id < part.size
  · have htwins := h.twins hid
    cases hparent : part.parent? id with
    | none => rw [h.parent?_eq_none htwins hparent, Option.map_none]
    | some outer =>
        obtain ⟨outerTwin, houter, hsame⟩ := h.exists_parent htwins hparent
        rw [houter, Option.map_some,
          h.twins_unique hsame (h.twins (h.named.parent_lt hparent))]
  · rw [parent?, parent?, node?_eq_none hid, node?_eq_none (mt h.place_lt_iff.mp hid)]
    rfl

/-- What a type applies it applies in its place. -/
theorem definitionOf_place (h : Embeds part whole place) (id : TypeId) :
    whole.definitionOf (place id) = place (part.definitionOf id) := by
  by_cases hid : id < part.size
  · exact h.twins_unique (h.definitionOf (h.twins hid)) (h.twins (h.named.definition_lt hid))
  · rw [TypeGraph.definitionOf, TypeGraph.definitionOf, node?_eq_none hid,
      node?_eq_none (mt h.place_lt_iff.mp hid)]
    rfl

/-- A type of the whole that stands in a place is a type of the part. -/
theorem exists_of_mem_range (h : Embeds part whole place) {other : TypeId}
    (hother : other < whole.size) (hmem : other ∈ Set.range place) :
    ∃ id < part.size, place id = other := by
  obtain ⟨id, rfl⟩ := hmem
  exact ⟨id, h.place_lt_iff.mp hother, rfl⟩

end Embeds

/-! ## Components -/

/-- The types of a graph stand in another one, in order, and no other type is enclosed by one of
them or applies one of them. -/
structure Component (part whole : TypeGraph) (place : TypeId ↪o TypeId) : Prop
    extends Embeds part whole place where
  parent_mem : ∀ {inner outer : TypeId}, whole.parent? inner = some outer →
    outer ∈ Set.range place → inner ∈ Set.range place
  definition_mem : ∀ {id : TypeId}, whole.definitionOf id ∈ Set.range place → id ∈ Set.range place

/-- Two graphs that share no place make up a whole. -/
structure Splits (left right whole : TypeGraph) (place otherPlace : TypeId ↪o TypeId) : Prop where
  left : Embeds left whole place
  right : Embeds right whole otherPlace
  cover : ∀ id < whole.size, id ∈ Set.range place ∨ id ∈ Set.range otherPlace
  disjoint : ∀ id < whole.size, id ∈ Set.range place → id ∉ Set.range otherPlace

namespace Splits

variable {otherPlace : TypeId ↪o TypeId}

/-- The two graphs may be exchanged. -/
theorem symm (h : Splits left right whole place otherPlace) :
    Splits right left whole otherPlace place where
  left := h.right
  right := h.left
  cover id hid := (h.cover id hid).symm
  disjoint id hid hright hleft := h.disjoint id hid hleft hright

/-- Each of the two graphs is a component. -/
theorem component (h : Splits left right whole place otherPlace) : Component left whole place where
  toEmbeds := h.left
  parent_mem := by
    intro inner outer hparent houter
    have hinner : inner < whole.size := Encloses.inner_lt hparent
    rcases h.cover inner hinner with hmem | ⟨id, rfl⟩
    · exact hmem
    · rw [h.right.parent?_place, Option.map_eq_some_iff] at hparent
      obtain ⟨otherOuter, hother, rfl⟩ := hparent
      have hlt := h.right.place_lt_iff.mpr (h.right.named.parent_lt hother)
      exact absurd (Set.mem_range_self otherOuter) (h.disjoint _ hlt houter)
  definition_mem := by
    intro id hdefinition
    by_cases hid : id < whole.size
    · rcases h.cover id hid with hmem | ⟨other, rfl⟩
      · exact hmem
      · rw [h.right.definitionOf_place] at hdefinition
        have hlt := h.right.place_lt_iff.mpr
          (h.right.named.definition_lt (h.right.place_lt_iff.mp hid))
        exact absurd (Set.mem_range_self _) (h.disjoint _ hlt hdefinition)
    · rwa [definitionOf, node?_eq_none hid] at hdefinition

end Splits

/-! ## Independent declarations -/

variable {first second declared foreign : List Declaration} {graph : TypeGraph}

/-- What is built from declarations that name no foreign family stands in a graph in which only
these and foreign families are added. -/
theorem exists_embeds (hgraph : graph.Named) (hmixed : Mixed declared foreign graph.declarations)
    (hplain : PlainFamilies foreign) {limit : Nat} (hpart : buildWithin limit declared = .ok part)
    (hnames : ∀ entry ∈ declared, ∀ t ∈ entry.interfaces, NamesNone foreign t)
    (hfilter : graph.declarations.filter (hasFamily declared) = part.declarations) :
    ∃ place, Embeds part graph place := by
  have hsublist : part.declarations.Sublist graph.declarations := hfilter ▸ List.filter_sublist
  obtain ⟨place, hplace⟩ := List.sublist_iff_exists_orderEmbedding_getElem?_eq.mp hsublist
  refine ⟨place, ⟨named_of_build hpart, hgraph, hsublist.subset, ?_⟩, hplace⟩
  intro t ht node hfound
  have hmem : node.declaration ∈ graph.declarations :=
    List.mem_map_of_mem (List.mem_of_find?_eq_some hfound)
  have hname : node.declaration.fullName = t.display := by
    have hfound := List.find?_some hfound
    exact of_decide_eq_true hfound
  rcases hmixed node.declaration hmem with hown | hforeign
  · exact hfilter ▸ List.mem_filter.mpr ⟨hmem, hown⟩
  · obtain ⟨mentioning, hmentioning, hinterface⟩ := List.mem_flatMap.mp ht
    have hnone := namesNone_of_build hpart hnames mentioning.declaration
      (List.mem_map_of_mem hmentioning) t hinterface
    exact absurd hname (hnone.fullName_ne hplain hforeign)

/-- A type whose declaration is that of a type of the part stands in a place. -/
theorem Embeds.mem_range (h : Embeds part whole place)
    (hid : whole.declarations[id]? = some declaration)
    (hmem : declaration ∈ part.declarations) : id ∈ Set.range place := by
  obtain ⟨position, hposition⟩ := List.mem_iff_getElem?.mp hmem
  have hnodup : whole.declarations.Nodup := h.otherNamed.names_nodup.of_map _
  have hlt := (List.getElem?_eq_some_iff.mp hid).1
  refine ⟨position, ?_⟩
  rw [h.getElem?_place, ← hid] at hposition
  exact ((List.getElem?_inj hlt hnodup).mp hposition.symm).symm

/-- Independent declarations are built into graphs that share no place in the graph of both
lists. -/
theorem Joins.exists_splits (h : Joins first second left right graph)
    (hindependent : Independent first second)
    (hparsed : ∀ declaration ∈ first ++ second, ∀ t ∈ declaration.interfaces, t.WellFormed)
    {leftLimit rightLimit : Nat} (hleft : buildWithin leftLimit first = .ok left)
    (hright : buildWithin rightLimit second = .ok right) :
    ∃ place otherPlace, Splits left right graph place otherPlace := by
  have hgraph : graph.Named := named_of_build (h.build graph.size (Nat.le_refl _))
  obtain ⟨place, hplace⟩ := exists_embeds hgraph h.mixed hindependent.plainFamilies hleft
    (fun entry hentry t ht => ⟨hparsed entry (List.mem_append_left _ hentry) t ht,
      hindependent.names entry hentry t ht⟩) h.left
  have hswapped : Mixed second first graph.declarations := fun entry hentry =>
    (h.mixed entry hentry).symm
  obtain ⟨otherPlace, hother⟩ :=
    exists_embeds hgraph hswapped hindependent.symm.plainFamilies hright
    (fun entry hentry t ht => ⟨hparsed entry (List.mem_append_right _ hentry) t ht,
      hindependent.otherNames entry hentry t ht⟩) h.right
  refine ⟨place, otherPlace, hplace, hother, ?_, ?_⟩
  · intro id hid
    have hdeclaration := List.getElem?_eq_getElem (graph.length_declarations.symm ▸ hid)
    have hmem := List.mem_of_getElem? hdeclaration
    rcases h.mixed _ hmem with hown | hforeign
    · exact Or.inl (hplace.mem_range hdeclaration (h.left ▸ List.mem_filter.mpr ⟨hmem, hown⟩))
    · exact Or.inr (hother.mem_range hdeclaration (h.right ▸ List.mem_filter.mpr ⟨hmem, hforeign⟩))
  · rintro id hid ⟨position, rfl⟩ ⟨otherPosition, hsame⟩
    have hdeclaration := List.getElem?_eq_getElem (graph.length_declarations.symm ▸ hid)
    have hmem := List.mem_of_getElem? ((hplace.getElem?_place position).trans hdeclaration)
    have hotherDeclaration := hother.getElem?_place otherPosition
    rw [hsame] at hotherDeclaration
    have hotherMem := List.mem_of_getElem? (hotherDeclaration.trans hdeclaration)
    rw [← h.left] at hmem
    rw [← h.right] at hotherMem
    have hnone := hindependent.disjoint _ (List.mem_filter.mp hmem).2
    rw [(List.mem_filter.mp hotherMem).2] at hnone
    cases hnone

end RadioBroker.TypeGraph
