import RadioBroker.Proofs.ServiceModel.Components
import RadioBroker.Proofs.ServiceModel.Instances
import RadioBroker.Proofs.TypeGraph.Completion

/-!
# Independent declarations, prepared together

Two lists of independent declarations are prepared together as they are one by one. The types that
are added for the first list stand behind the declarations of the second one, but they apply
definitions that have been linked by then. The roots of the first list therefore stay in front of
those of the second list.
-/

namespace RadioBroker

open TypeGraph

namespace TypeGraph

variable {limit : Nat} {given first second : List Declaration}
  {graph part whole left right : TypeGraph} {place otherPlace : TypeId ↪o TypeId} {id : TypeId}

/-! ## Added types -/

/-- A type that was not given applies a definition that was given, and is marked if that is. -/
theorem definition_of_added (h : buildWithin limit given = .ok graph) (hid : id < graph.size)
    (hadded : given.length ≤ id) :
    graph.definitionOf id < given.length ∧
      graph.definitionOf (graph.definitionOf id) = graph.definitionOf id ∧
      graph.serviceBound? (graph.definitionOf id) = graph.serviceBound? id := by
  have hgraph := wellFormed_of_build h
  have hjustified := justified_of_build h
  obtain ⟨node, hnode⟩ := exists_node_iff.mpr hid
  have hdeclaration : graph.declarations[id]? = some node.declaration := by
    rw [declarations, List.getElem?_map, show graph.nodes[id]? = _ from hnode, Option.map_some]
  have hdropped : node.declaration ∈ graph.declarations.drop given.length := by
    refine List.mem_iff_getElem?.mpr ⟨id - given.length, ?_⟩
    rwa [List.getElem?_drop, Nat.add_sub_cancel' hadded]
  obtain ⟨_, _, t, _, happlies⟩ :=
    hjustified.mentionedIn_of_drop (hgraph.names_nodup.of_map _) hdropped
  obtain ⟨definition, hdefinition, _, _, hclose⟩ := happlies.applied
  obtain ⟨parameters, hopen, _, hclosed⟩ := Declaration.close_eq_ok_iff.mp hclose
  -- The definition stands where it was given.
  obtain ⟨position, hposition⟩ := List.mem_iff_getElem?.mp hdefinition
  have hlt := (List.getElem?_eq_some_iff.mp hposition).1
  have hfound : graph.declarations[position]? = some definition := by
    obtain ⟨added, hprefix⟩ := hjustified.declared_prefix
    rw [← hprefix, List.getElem?_append_left hlt, hposition]
  rw [declarations, List.getElem?_map, Option.map_eq_some_iff] at hfound
  obtain ⟨definitionNode, hdefinitionNode, rfl⟩ := hfound
  have hdefinitionOf : graph.definitionOf id = position := by
    refine hgraph.fullName_inj (hgraph.definition_lt hid)
      (exists_node_iff.mp ⟨definitionNode, hdefinitionNode⟩) ?_
    rw [definitionOf, hnode, fullName_of_node hdefinitionNode]
    refine (definition_of_build h hnode).trans ?_
    rw [← hclosed]
    rfl
  rw [hdefinitionOf]
  refine ⟨hlt, hgraph.definition_self hdefinitionNode (by rw [hopen]; rfl), ?_⟩
  rw [serviceBound?, serviceBound?,
    ServiceModel.marker?_closeOver h hdefinitionNode hopen hnode hclosed.symm]

/-! ## Marked types -/

/-- The types that a marker governs, in order. -/
def marked (graph : TypeGraph) : List TypeId :=
  graph.ids.filter fun id => (graph.serviceBound? id).isSome

/-- The relations when all types are linked that a marker governs. -/
def linkMarked (graph : TypeGraph) : Relations :=
  (Relations.initial graph).linkAll graph graph.marked

/-- The types that a marker governs. -/
theorem mem_marked : id ∈ graph.marked ↔ (graph.serviceBound? id).isSome = true := by
  rw [marked, List.mem_filter, mem_ids]
  exact and_iff_right_of_imp lt_of_serviceBound?

/-- Of the marked types of the whole those stand in places that are marked in the part. -/
theorem filter_marked (h : Embeds part whole place) :
    whole.marked.filter (Relations.isPlaced place) = part.marked.map place := by
  have hpart : part.marked.Pairwise (· < ·) := List.pairwise_lt_range.filter _
  have hwhole : whole.marked.Pairwise (· < ·) := List.pairwise_lt_range.filter _
  refine List.Pairwise.eq_of_mem_iff (hwhole.filter _)
    (hpart.map place fun _ _ hlt => place.lt_iff_lt.mpr hlt) fun other => ?_
  rw [List.mem_filter, List.mem_map, mem_marked, Relations.isPlaced_iff]
  constructor
  · rintro ⟨hmarked, hplaced⟩
    obtain ⟨id, hid, rfl⟩ := h.exists_of_mem_range (lt_of_serviceBound? hmarked) hplaced
    exact ⟨id, mem_marked.mpr (h.serviceBound?_eq (h.twins hid) ▸ hmarked), rfl⟩
  · rintro ⟨id, hid, rfl⟩
    have hmarked := mem_marked.mp hid
    refine ⟨?_, Set.mem_range_self id⟩
    rwa [← h.serviceBound?_eq (h.twins (lt_of_serviceBound? hmarked))]

/-- The marked types of a component are linked in the whole as in the component alone. -/
theorem mirrors_linkMarked (h : Component part whole place) :
    Relations.Mirrors place part.linkMarked whole.linkMarked :=
  (Relations.Mirrors.initial h.toEmbeds).linkAll h (filter_marked h.toEmbeds)

/-! ## The roots of both lists -/

namespace Joins

/-- The types of the first list stand where they stand in its graph. -/
theorem mem_range_left (h : Joins first second left right graph) (hplace : Embeds left graph place)
    (hid : id < first.length) : id ∈ Set.range place := by
  obtain ⟨added, hadded⟩ := h.given_prefix
  have hdeclaration : graph.declarations[id]? = some first[id] := by
    rw [← hadded, List.append_assoc, List.getElem?_append_left hid, List.getElem?_eq_getElem hid]
  have hfamily : hasFamily first first[id] = true :=
    hasFamily_iff.mpr ⟨_, List.getElem_mem hid, rfl⟩
  exact hplace.mem_range hdeclaration
    (h.left ▸ List.mem_filter.mpr ⟨List.mem_of_getElem? hdeclaration, hfamily⟩)

/-- The types of the second list stand where they stand in its graph. -/
theorem mem_range_right (h : Joins first second left right graph)
    (hplace : Embeds right graph otherPlace) {offset : Nat} (hid : offset < second.length) :
    first.length + offset ∈ Set.range otherPlace := by
  obtain ⟨added, hadded⟩ := h.given_prefix
  have hdeclaration : graph.declarations[first.length + offset]? = some second[offset] := by
    rw [← hadded, List.append_assoc, List.getElem?_append_right (Nat.le_add_right _ _),
      Nat.add_sub_cancel_left, List.getElem?_append_left hid, List.getElem?_eq_getElem hid]
  have hfamily : hasFamily second second[offset] = true :=
    hasFamily_iff.mpr ⟨_, List.getElem_mem hid, rfl⟩
  exact hplace.mem_range hdeclaration
    (h.right ▸ List.mem_filter.mpr ⟨List.mem_of_getElem? hdeclaration, hfamily⟩)

/-- The roots of the first list stand in front of those of the second one. -/
theorem roots_linkMarked (h : Joins first second left right graph)
    (hsplits : Splits left right graph place otherPlace) :
    graph.linkMarked.roots =
      left.linkMarked.roots.map place ++ right.linkMarked.roots.map otherPlace := by
  have hbuild := h.build graph.size (Nat.le_refl _)
  obtain ⟨added, hsize⟩ : ∃ added, graph.size = first.length + second.length + added := by
    have hle := h.given_prefix.length_le
    rw [List.length_append, length_declarations] at hle
    exact Nat.exists_eq_add_of_le hle
  -- The marked types of the first list, those of the second list, and those that are added.
  let isMarked := fun id => (graph.serviceBound? id).isSome
  let early := (List.range first.length).filter isMarked
  let middle := ((List.range second.length).map (first.length + ·)).filter isMarked
  let late := ((List.range added).map (first.length + second.length + ·)).filter isMarked
  have hgiven : early ++ middle = (List.range (first.length + second.length)).filter isMarked := by
    rw [List.range_add, List.filter_append]
  have hmarked : graph.marked = early ++ middle ++ late := by
    rw [marked, ids, hsize, List.range_add, List.filter_append, hgiven]
  rw [linkMarked, hmarked]
  refine Relations.roots_linkAll_of_splits hsplits ?first ?second ?added ?left ?right
  case first =>
    intro id hid
    have hlt := List.mem_range.mp (List.mem_filter.mp hid).1
    have hle : first.length ≤ graph.size := by omega
    exact ⟨Nat.lt_of_lt_of_le hlt hle, h.mem_range_left hsplits.left hlt⟩
  case second =>
    intro id hid
    obtain ⟨offset, hoffset, rfl⟩ := List.mem_map.mp (List.mem_filter.mp hid).1
    have hlt := List.mem_range.mp hoffset
    have hle : first.length + second.length ≤ graph.size := by omega
    exact ⟨Nat.lt_of_lt_of_le (Nat.add_lt_add_left hlt _) hle,
      h.mem_range_right hsplits.right hlt⟩
  case added =>
    intro id hid
    obtain ⟨hmem, hidMarked⟩ := List.mem_filter.mp hid
    obtain ⟨offset, hoffset, rfl⟩ := List.mem_map.mp hmem
    have hlt : first.length + second.length + offset < graph.size := by
      rw [hsize]
      exact Nat.add_lt_add_left (List.mem_range.mp hoffset) _
    obtain ⟨hdefinition, hself, hbound⟩ := definition_of_added hbuild hlt
      (by rw [List.length_append]; exact Nat.le_add_right _ _)
    rw [List.length_append] at hdefinition
    refine ⟨hlt, hgiven ▸ List.mem_filter.mpr ⟨List.mem_range.mpr hdefinition, ?_⟩, hself⟩
    exact (congrArg Option.isSome hbound).trans hidMarked
  case left => rw [← hmarked, filter_marked hsplits.left]
  case right => rw [← hmarked, filter_marked hsplits.right]

end Joins

/-- A type extends the base interface in its place if it does in the part. -/
theorem Embeds.extendsBase_place (h : Embeds part whole place) (hid : id < part.size) :
    whole.extendsBase (place id) = part.extendsBase id := by
  rw [extendsBase, extendsBase, h.allInterfaces_eq (h.twins hid)]

end TypeGraph

namespace ServiceModel

variable {first second : List Declaration} {left right graph : TypeGraph}
  {place otherPlace : TypeId ↪o TypeId}

/-! ## Preparations -/

/-- A linked model has linked the marked types. -/
theorem relations_linkedModel (graph : TypeGraph) :
    (linkedModel graph).relations = graph.linkMarked := by
  have hservices : ∀ id, isService { ofGraph graph with
      configured := graph.ids
      services := markedAmong graph graph.ids } id = (graph.serviceBound? id).isSome := by
    intro id
    rw [← isService_linkedModel, linkedModel_eq]
    rfl
  rw [linkedModel, relations_linkServices, List.filter_congr fun id _ => hservices id]
  rfl

/-- A ready preparation has linked the marked types. -/
theorem relations_prepare (hready : ((ofGraph graph).prepare .empty).outcome = .ready) :
    ((ofGraph graph).prepare .empty).model.relations = graph.linkMarked := by
  rw [prepare_ofGraph, checkAll_linkedModel ((outcome_prepare_eq_ready_iff graph).mp hready),
    ← relations_linkedModel]
  rfl

/-- A graph with two components that are ready is ready. -/
theorem outcome_prepare_of_splits (hsplits : Splits left right graph place otherPlace)
    (hleft : ((ofGraph left).prepare .empty).outcome = .ready)
    (hright : ((ofGraph right).prepare .empty).outcome = .ready) :
    ((ofGraph graph).prepare .empty).outcome = .ready := by
  rw [outcome_prepare_eq_ready_iff] at hleft hright ⊢
  intro id hmarked
  have hlt := lt_of_serviceBound? hmarked
  rcases hsplits.cover id hlt with hplaced | hplaced
  · obtain ⟨id, hid, rfl⟩ := hsplits.left.exists_of_mem_range hlt hplaced
    rw [hsplits.left.extendsBase_place hid]
    exact hleft id (hsplits.left.serviceBound?_eq (hsplits.left.twins hid) ▸ hmarked)
  · obtain ⟨id, hid, rfl⟩ := hsplits.right.exists_of_mem_range hlt hplaced
    rw [hsplits.right.extendsBase_place hid]
    exact hright id (hsplits.right.serviceBound?_eq (hsplits.right.twins hid) ▸ hmarked)

/-- A model of which the types stand in another one, where they are related as they are alone. -/
structure Part (part whole : ServiceModel) (place : TypeId ↪o TypeId) : Prop where
  embeds : Embeds part.graph whole.graph place
  analysed : part.Analysed
  wholeAnalysed : whole.Analysed
  relations : Relations.Mirrors place part.relations whole.relations

/-- What is known about a type of a part is known about it in its place. -/
theorem Part.included {part whole : ServiceModel} (h : Part part whole place) :
    Included part whole where
  graph := h.embeds.toInclusion
  analysed := h.analysed
  otherAnalysed := h.wholeAnalysed

namespace Part

variable {part whole : ServiceModel} {id : TypeId}

/-- A root of a part is a type of the part. -/
theorem lt_of_mem_roots (h : Part part whole place) (hid : id ∈ part.relations.roots) :
    id < part.graph.size :=
  h.analysed.lt_of_instances (h.analysed.relations.mem_roots_iff.mp hid).2

/-- The roots of a part are in the same namespaces in the whole. -/
theorem map_namespaceOf_roots (h : Part part whole place) :
    (part.relations.roots.map place).map whole.namespaceOf =
      part.relations.roots.map part.namespaceOf := by
  rw [List.map_map]
  exact List.map_congr_left fun root hroot =>
    (namespaceOf_eq (h.embeds.twins (h.lt_of_mem_roots hroot))).symm

/-- A namespace has the same roots of a part in the whole. -/
theorem filter_namespaceOf_roots (h : Part part whole place) (name : String) :
    ((part.relations.roots.map place).filter fun root => whole.namespaceOf root = name) =
      (part.relations.roots.filter fun root => part.namespaceOf root = name).map place := by
  rw [List.filter_map]
  congr 1
  refine List.filter_congr fun root hroot => ?_
  rw [namespaceOf_eq (h.embeds.twins (h.lt_of_mem_roots hroot))]
  rfl

/-- A namespace in which a part has no root has none of its roots in the whole. -/
theorem filter_namespaceOf_roots_eq_nil (h : Part part whole place) {name : String}
    (hname : ∀ root ∈ part.relations.roots, part.namespaceOf root ≠ name) :
    ((part.relations.roots.map place).filter fun root => whole.namespaceOf root = name) = [] := by
  rw [h.filter_namespaceOf_roots, List.map_eq_nil_iff, List.filter_eq_nil_iff]
  exact fun root hroot => by simpa using hname root hroot

end Part

/-- Two models that make up another one, in which the roots of the first one come first. -/
structure Composes (left right whole : ServiceModel) (place otherPlace : TypeId ↪o TypeId) :
    Prop where
  leftPart : Part left whole place
  rightPart : Part right whole otherPlace
  disjoint : ∀ id < whole.graph.size, id ∈ Set.range place → id ∉ Set.range otherPlace
  roots : whole.relations.roots =
    left.relations.roots.map place ++ right.relations.roots.map otherPlace
  namespaces : ∀ root ∈ left.relations.roots, ∀ other ∈ right.relations.roots,
    left.namespaceOf root ≠ right.namespaceOf other

/-- The namespaces of a whole are those of the first part and, behind them, those of the second
part. -/
theorem Composes.namespaces_eq {left right whole : ServiceModel}
    (h : Composes left right whole place otherPlace) :
    whole.namespaces = left.namespaces.map (Prod.map id (List.map place)) ++
      right.namespaces.map (Prod.map id (List.map otherPlace)) := by
  have hnames : (left.relations.roots.map left.namespaceOf ++
        right.relations.roots.map right.namespaceOf).eraseDups =
      (left.relations.roots.map left.namespaceOf).eraseDups ++
        (right.relations.roots.map right.namespaceOf).eraseDups := by
    rw [List.eraseDups_append, List.removeAll, List.filter_eq_self.mpr]
    intro name hname
    obtain ⟨other, hother, rfl⟩ := List.mem_map.mp hname
    rw [Bool.not_eq_true', List.elem_eq_contains, ← Bool.not_eq_true, List.contains_iff_mem]
    intro hmem
    obtain ⟨root, hroot, hsame⟩ := List.mem_map.mp hmem
    exact h.namespaces root hroot other hother hsame
  simp only [ServiceModel.namespaces, h.roots, List.map_append, h.leftPart.map_namespaceOf_roots,
    h.rightPart.map_namespaceOf_roots, hnames, List.filter_append, List.map_map]
  congr 1
  · refine List.map_congr_left fun name hname => ?_
    obtain ⟨root, hroot, rfl⟩ := List.mem_map.mp (List.mem_eraseDups.mp hname)
    rw [h.rightPart.filter_namespaceOf_roots_eq_nil fun other hother hsame =>
      h.namespaces root hroot other hother hsame.symm, List.append_nil,
      h.leftPart.filter_namespaceOf_roots]
    rfl
  · refine List.map_congr_left fun name hname => ?_
    obtain ⟨other, hother, rfl⟩ := List.mem_map.mp (List.mem_eraseDups.mp hname)
    rw [h.leftPart.filter_namespaceOf_roots_eq_nil fun root hroot hsame =>
      h.namespaces root hroot other hother hsame, List.nil_append,
      h.rightPart.filter_namespaceOf_roots]
    rfl

/-- The roots of a ready model are in namespaces that are declared. -/
theorem Analysed.exists_namespaceName {model : ServiceModel} (h : model.Analysed) {limit : Nat}
    {given : List Declaration} (hbuild : buildWithin limit given = .ok model.graph) {root : TypeId}
    (hroot : root ∈ model.relations.roots) :
    ∃ declaration ∈ given, declaration.namespaceName = model.namespaceOf root := by
  have hlt := h.lt_of_instances (h.relations.mem_roots_iff.mp hroot).2
  obtain ⟨node, hnode⟩ := exists_node_iff.mpr hlt
  have hmem : node.declaration ∈ model.graph.declarations :=
    List.mem_map_of_mem (List.mem_of_getElem? hnode)
  obtain ⟨declaration, hdeclaration, hname⟩ :=
    (justified_of_build hbuild).exists_namespaceName hmem
  refine ⟨declaration, hdeclaration, hname.trans ?_⟩
  simp [namespaceOf, hnode]

/-- Independent declarations that are ready one by one are ready together, and their models make up
the model of both. -/
theorem exists_composes (hjoins : Joins first second left right graph)
    (hindependent : Independent first second)
    (hparsed : ∀ declaration ∈ first ++ second, ∀ t ∈ declaration.interfaces, t.WellFormed)
    {leftLimit rightLimit : Nat} (hleft : buildWithin leftLimit first = .ok left)
    (hright : buildWithin rightLimit second = .ok right)
    (hleftReady : ((ofGraph left).prepare .empty).outcome = .ready)
    (hrightReady : ((ofGraph right).prepare .empty).outcome = .ready) :
    ((ofGraph graph).prepare .empty).outcome = .ready ∧
      ∃ place otherPlace, Composes ((ofGraph left).prepare .empty).model
        ((ofGraph right).prepare .empty).model ((ofGraph graph).prepare .empty).model
        place otherPlace := by
  obtain ⟨place, otherPlace, hsplits⟩ := hjoins.exists_splits hindependent hparsed hleft hright
  have hready := outcome_prepare_of_splits hsplits hleftReady hrightReady
  refine ⟨hready, place, otherPlace, ?_⟩
  obtain ⟨hleftGraph, hleftAnalysed, _⟩ := analysed_of_prepare hleft hleftReady
  obtain ⟨hrightGraph, hrightAnalysed, _⟩ := analysed_of_prepare hright hrightReady
  obtain ⟨hgraph, hanalysed, _⟩ :=
    analysed_of_prepare (hjoins.build graph.size (Nat.le_refl _)) hready
  have hleftRelations := relations_prepare hleftReady
  have hrightRelations := relations_prepare hrightReady
  have hrelations := relations_prepare hready
  generalize ((ofGraph left).prepare .empty).model = leftModel at *
  generalize ((ofGraph right).prepare .empty).model = rightModel at *
  generalize ((ofGraph graph).prepare .empty).model = model at *
  subst hleftGraph hrightGraph hgraph
  constructor
  case leftPart =>
    refine ⟨hsplits.left, hleftAnalysed, hanalysed, ?_⟩
    rw [hleftRelations, hrelations]
    exact mirrors_linkMarked hsplits.component
  case rightPart =>
    refine ⟨hsplits.right, hrightAnalysed, hanalysed, ?_⟩
    rw [hrightRelations, hrelations]
    exact mirrors_linkMarked hsplits.symm.component
  case disjoint => exact hsplits.disjoint
  case roots =>
    rw [hleftRelations, hrightRelations, hrelations]
    exact hjoins.roots_linkMarked hsplits
  case namespaces =>
    intro root hroot other hother hsame
    obtain ⟨declaration, hmem, hname⟩ := hleftAnalysed.exists_namespaceName hleft hroot
    obtain ⟨foreign, hforeign, hforeignName⟩ := hrightAnalysed.exists_namespaceName hright hother
    exact hindependent.namespaces declaration hmem foreign hforeign
      (hname.trans (hsame.trans hforeignName.symm))

end ServiceModel

end RadioBroker
