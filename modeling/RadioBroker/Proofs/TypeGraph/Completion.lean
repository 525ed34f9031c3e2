import RadioBroker.Declaration.Builder
import RadioBroker.Proofs.TypeGraph.Mentions

/-!
# What a build consists of

A graph that is built holds the given declarations, unchanged and in front, and behind them closed
types only, each of which is mentioned by a type of the graph. Of all that its types mention nothing
is missing, as far as a family of that name is declared, and that includes what the added types
mention.
-/

namespace RadioBroker.TypeGraph

variable {given declared known more : List Declaration} {graph : TypeGraph}

/-! ## Where added types come from -/

/-- A declaration is what a type that a known declaration mentions stands for. -/
def MentionedIn (declared known : List Declaration) (declaration : Declaration) : Prop :=
  ∃ mentioning ∈ known, ∃ t ∈ mentionedBy mentioning, Applies declared t declaration

/-- A search has added nothing but what is mentioned, behind all that is declared. -/
structure Justified (declared known : List Declaration) : Prop where
  declared_prefix : declared <+: known
  mentioned : ∀ declaration ∈ known, declaration ∈ declared ∨ MentionedIn declared known declaration

/-- A search starts with nothing added. -/
theorem Justified.start (declared : List Declaration) : Justified declared declared where
  declared_prefix := List.prefix_rfl
  mentioned _ hmem := Or.inl hmem

/-- What is added for one more declaration is mentioned by it. -/
theorem Justified.step {mentioning : Declaration} (h : Justified declared known)
    (hmem : mentioning ∈ known)
    (hmore : (mentionedBy mentioning).foldlM (addMentioned declared) known = .ok more) :
    Justified declared more := by
  obtain ⟨hgrows, _, hnew⟩ := foldlM_addMentioned_cases h.declared_prefix.subset hmore
  refine ⟨h.declared_prefix.trans hgrows, fun declaration hdeclaration => ?_⟩
  rcases hnew declaration hdeclaration with hknown | ⟨t, ht, happlies⟩
  · refine (h.mentioned declaration hknown).imp_right fun hmentioned => ?_
    obtain ⟨earlier, hearlier, hmention⟩ := hmentioned
    exact ⟨earlier, hgrows.subset hearlier, hmention⟩
  · exact Or.inr ⟨mentioning, hgrows.subset hmem, t, ht, happlies⟩

/-- Where names are distinct, what stands behind all that is declared is mentioned. -/
theorem Justified.mentionedIn_of_drop {declaration : Declaration} (h : Justified declared known)
    (hnodup : known.Nodup) (hmem : declaration ∈ known.drop declared.length) :
    MentionedIn declared known declaration := by
  refine (h.mentioned declaration (List.mem_of_mem_drop hmem)).resolve_left fun hgiven => ?_
  obtain ⟨added, rfl⟩ := h.declared_prefix
  rw [List.drop_left] at hmem
  exact (List.nodup_append.mp hnodup).2.2 declaration hgiven declaration hmem rfl

/-- What is known is in a namespace that is declared. -/
theorem Justified.exists_namespaceName {declaration : Declaration} (h : Justified declared known)
    (hmem : declaration ∈ known) :
    ∃ other ∈ declared, other.namespaceName = declaration.namespaceName := by
  rcases h.mentioned declaration hmem with hgiven | ⟨_, _, t, _, happlies⟩
  · exact ⟨declaration, hgiven, rfl⟩
  · obtain ⟨definition, hdefinition, _, _, hclose⟩ := happlies.applied
    obtain ⟨parameters, _, _, rfl⟩ := Declaration.close_eq_ok_iff.mp hclose
    exact ⟨definition, hdefinition, rfl⟩

/-- What a build adds is mentioned. -/
theorem justified_of_build {limit : Nat} (h : buildWithin limit given = .ok graph) :
    Justified given graph.declarations := by
  obtain ⟨_, hsearch, _⟩ := declarations_of_build h
  obtain ⟨_, hjustified, _⟩ := addAllMentioned_induction
    (fun known _ => Justified given known)
    (fun _ _ _ _ hjustified hnext hmore => hjustified.step (List.mem_of_getElem? hnext) hmore)
    (Justified.start given) hsearch
  exact hjustified

/-! ## Names and positions -/

/-- Looking a name up is the inverse of telling the name of a type. -/
theorem WellFormed.find?_eq_some_iff (hgraph : graph.WellFormed) {name : String} {id : TypeId} :
    graph.find? name = some id ↔
      ∃ node, graph.node? id = some node ∧ node.declaration.fullName = name := by
  constructor
  · intro hfound
    obtain ⟨hlt, hname, _⟩ := List.findIdx?_eq_some_iff_getElem.mp hfound
    exact ⟨graph.nodes[id], List.getElem?_eq_getElem hlt, of_decide_eq_true hname⟩
  · intro hnode
    obtain ⟨node, hnode, hname⟩ := hnode
    cases hfound : graph.find? name with
    | none =>
        have hnone := List.findIdx?_eq_none_iff.mp hfound node (List.mem_of_getElem? hnode)
        simp [hname] at hnone
    | some other =>
        obtain ⟨hlt, hother, _⟩ := List.findIdx?_eq_some_iff_getElem.mp hfound
        have hotherNode : graph.node? other = some graph.nodes[other] :=
          List.getElem?_eq_getElem hlt
        rw [hgraph.fullName_inj hlt (exists_node_iff.mp ⟨node, hnode⟩) ?_]
        rw [fullName_of_node hotherNode, fullName_of_node hnode, hname]
        exact of_decide_eq_true hother

/-- A type of the graph is found by its full name. -/
theorem WellFormed.find?_fullName (hgraph : graph.WellFormed) {id : TypeId}
    (hid : id < graph.size) : graph.find? (graph.fullName id) = some id := by
  obtain ⟨node, hnode⟩ := exists_node_iff.mpr hid
  exact hgraph.find?_eq_some_iff.mpr ⟨node, hnode, (fullName_of_node hnode).symm⟩

/-! ## The whole graph -/

/-- What a graph that is built from `given` declarations consists of. -/
structure Completes (given : List Declaration) (graph : TypeGraph) : Prop where
  given_prefix : given <+: graph.declarations
  find?_eq_some_iff : ∀ name id, graph.find? name = some id ↔
    ∃ node, graph.node? id = some node ∧ node.declaration.fullName = name
  names_nodup : (graph.declarations.map Declaration.fullName).Nodup
  parent_of_none : ∀ id node, graph.node? id = some node →
    node.declaration.containingType = none → node.parent = none
  parent_of_some : ∀ id node name, graph.node? id = some node →
    node.declaration.containingType = some name →
    ∃ parent, node.parent = some parent ∧ graph.find? name = some parent
  definition_of_closed : ∀ id node name arguments, graph.node? id = some node →
    node.declaration.generics = .closedOver name arguments → graph.find? name = some node.definition
  definition_of_other : ∀ id node, graph.node? id = some node →
    node.declaration.generics.isClosed = false → node.definition = id
  /-- Each added type is a given definition applied to as many arguments as it has parameters, and
  a type of the graph that is no definition itself extends the definition under this name, applied
  to these arguments. -/
  added : ∀ declaration ∈ graph.declarations.drop given.length,
    ∃ definition ∈ given, ∃ mentioning ∈ graph.declarations, ∃ t ∈ mentioning.interfaces,
      mentioning.isOpen = false ∧ definition.familyName = t.head ∧
        isOpenOver definition t.arity = true ∧ definition.close t.arguments = .ok declaration
  /-- What a type of the graph that is no definition extends, applied to arguments, is in the graph
  if a declared family has the name. -/
  complete : ∀ mentioning ∈ graph.declarations, mentioning.isOpen = false →
    ∀ t ∈ mentioning.interfaces, 0 < t.arity → t.suffix = "" →
      (∃ other ∈ given, other.familyName = t.head) → ∃ id, graph.find? t.display = some id

/-- A mention without marks that has been dealt with is the name of a known declaration, if a family
has its name. -/
theorem Settled.exists_fullName {t : TypeExpr} (h : Settled declared known t) (harity : 0 < t.arity)
    (hmarks : t.suffix = "") (hfamily : ∃ other ∈ declared, other.familyName = t.head) :
    ∃ declaration ∈ known, declaration.fullName = t.display := by
  rcases h with hknown | hnone | ⟨closed, hclosed, happlies⟩
  · exact hknown
  · obtain ⟨other, hother, hname⟩ := hfamily
    exact absurd hname (familyName_ne_of_definitionFor hnone other hother)
  · obtain ⟨head, arguments, suffix⟩ := t
    cases hmarks
    exact ⟨closed, hclosed, happlies.fullName_eq harity⟩

/-- A graph that is built holds the given declarations, what they mention, what that mentions, and
nothing else. -/
theorem completes_of_build (h : build given = .ok graph) : Completes given graph := by
  have hgraph := wellFormed_of_build h
  have hjustified := justified_of_build h
  obtain ⟨_, hsearch, _⟩ := declarations_of_build h
  have hsearched := (Searched.start given).of_addAllMentioned hsearch
  constructor
  case given_prefix => exact hjustified.declared_prefix
  case find?_eq_some_iff => exact fun _ _ => hgraph.find?_eq_some_iff
  case names_nodup => exact hgraph.names_nodup
  case parent_of_none =>
    intro id node hnode hnone
    have hname := parent_of_build h hnode
    rwa [hnone, Option.map_eq_none_iff] at hname
  case parent_of_some =>
    intro id node name hnode hsome
    have hname := parent_of_build h hnode
    rw [hsome, Option.map_eq_some_iff] at hname
    obtain ⟨parent, hparent, rfl⟩ := hname
    have hencloses : graph.parent? id = some parent := by
      rw [parent?, hnode, Option.bind_some, hparent]
    exact ⟨parent, hparent, hgraph.find?_fullName (hgraph.parent_lt hencloses)⟩
  case definition_of_closed =>
    intro id node name arguments hnode hclosed
    have hname := definition_of_build h hnode
    have hlt := hgraph.definition_lt (exists_node_iff.mp ⟨node, hnode⟩)
    rw [definitionOf, hnode] at hlt
    simp only [Declaration.definitionName, hclosed] at hname
    exact hname ▸ hgraph.find?_fullName hlt
  case definition_of_other =>
    intro id node hnode hother
    have hself := hgraph.definition_self hnode hother
    rwa [definitionOf, hnode] at hself
  case added =>
    intro declaration hadded
    obtain ⟨mentioning, hmentioning, t, ht, happlies⟩ :=
      hjustified.mentionedIn_of_drop (hgraph.names_nodup.of_map _) hadded
    obtain ⟨hopen, hmention, _⟩ := mem_mentionedBy_iff.mp ht
    obtain ⟨definition, hdefinition, hname, hover, hclose⟩ := happlies.applied
    exact ⟨definition, hdefinition, mentioning, hmentioning, t, hmention, hopen, hname, hover,
      hclose⟩
  case complete =>
    intro mentioning hmentioning hopen t ht harity hmarks hfamily
    have hsettled := hsearched.settled mentioning (by rwa [List.take_length]) t
      (mem_mentionedBy_iff.mpr ⟨hopen, ht, harity⟩)
    obtain ⟨declaration, hmem, hname⟩ := hsettled.exists_fullName harity hmarks hfamily
    obtain ⟨node, hnode, rfl⟩ := List.mem_map.mp hmem
    obtain ⟨id, hid⟩ := List.mem_iff_getElem?.mp hnode
    exact ⟨id, hgraph.find?_eq_some_iff.mpr ⟨node, hid, hname⟩⟩

/-- A box is a cell of arrays, and a type that extends a box of `int`. -/
def boxes : List Declaration :=
  [{ (Declaration.ofPath .interface "N" "Box").openGeneric ["T"] with
      interfaces := [⟨"N.Cell", [⟨"T", [], "[]"⟩], ""⟩] },
   (Declaration.ofPath .interface "N" "Cell").openGeneric ["U"],
   { Declaration.ofPath .interface "N" "User" with
      interfaces := [⟨"N.Box", [⟨"int", [], ""⟩], ""⟩] }]

/-- The graph of `boxes`: the box of `int` is added for the user, and the cell for the box. -/
def boxesGraph : TypeGraph :=
  ⟨[⟨boxes[0], none, 0⟩, ⟨boxes[1], none, 1⟩, ⟨boxes[2], none, 2⟩,
    ⟨boxes[0].closeOver ["T"] [⟨"int", [], ""⟩], none, 0⟩,
    ⟨boxes[1].closeOver ["U"] [⟨"int", [], "[]"⟩], none, 1⟩]⟩

/-- What the box of `int` extends is in the graph, although the box was not given. -/
theorem completes_boxes :
    build boxes = .ok boxesGraph ∧ Completes boxes boxesGraph ∧
      boxesGraph.fullName 3 = "N.Box<int>" ∧ ∃ id, boxesGraph.find? "N.Cell<int[]>" = some id := by
  have hbuild : build boxes = .ok boxesGraph := by rfl
  have h := completes_of_build hbuild
  refine ⟨hbuild, h, by rfl, ?_⟩
  exact h.complete boxesGraph.nodes[3].declaration (by simp [boxesGraph, declarations]) (by rfl)
    ⟨"N.Cell", [⟨"int", [], "[]"⟩], ""⟩ (List.mem_singleton.mpr rfl) Nat.one_pos rfl
    ⟨boxes[1], by simp, by rfl⟩

end RadioBroker.TypeGraph
