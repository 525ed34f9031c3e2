import Mathlib.Data.List.Nodup
import RadioBroker.Proofs.Traversal
import RadioBroker.TypeGraph.Build

/-!
# Graphs that are built are well formed

`TypeGraph.build` yields a graph in which full names tell types apart and every enclosing type and
every definition that a type refers to is there. Positions and full names of a well-formed graph
therefore stand for each other.
-/

namespace RadioBroker.TypeGraph

/-- The full names of declarations are distinct. -/
def NamesDistinct (known : List Declaration) : Prop :=
  (known.map Declaration.fullName).Nodup

instance (known : List Declaration) : Decidable (NamesDistinct known) :=
  inferInstanceAs (Decidable (known.map Declaration.fullName).Nodup)

/-- Full names tell the types of a graph apart, and what its types refer to is in it. -/
structure WellFormed (graph : TypeGraph) : Prop where
  names_nodup : NamesDistinct (graph.nodes.map TypeNode.declaration)
  parent_lt : ∀ {id parent : TypeId}, graph.parent? id = some parent → parent < graph.size
  definition_lt : ∀ {id : TypeId}, id < graph.size → graph.definitionOf id < graph.size
  /-- Only an applied definition is not its own definition. -/
  definition_self : ∀ {id : TypeId} {node : TypeNode}, graph.node? id = some node →
    node.declaration.generics.isClosed = false → graph.definitionOf id = id

/-! ## Names stay distinct while declarations are added -/

/-- A declaration is added behind the others, if its name is not taken. -/
theorem addDeclaration_eq_ok_iff {known next : List Declaration} {declaration : Declaration} :
    addDeclaration known declaration = .ok next ↔
      (∀ other ∈ known, other.fullName ≠ declaration.fullName) ∧ next = known ++ [declaration] := by
  unfold addDeclaration
  split
  · rename_i htaken
    simp only [List.any_eq_true, decide_eq_true_eq] at htaken
    obtain ⟨other, hmem, hname⟩ := htaken
    simp only [reduceCtorEq, false_iff, not_and]
    exact fun hfree => absurd hname (hfree other hmem)
  · rename_i hfree
    simp only [List.any_eq_true, decide_eq_true_eq, not_exists, not_and] at hfree
    rw [Except.ok.injEq, eq_comm]
    exact (and_iff_right hfree).symm

/-- A declaration is not added if its name is taken. -/
theorem addDeclaration_eq_error_iff {known : List Declaration} {declaration : Declaration}
    {error : BuildError} :
    addDeclaration known declaration = .error error ↔
      declaration.fullName ∈ known.map Declaration.fullName ∧
        .duplicateType declaration.fullName = error := by
  unfold addDeclaration
  split
  · rename_i htaken
    simp only [List.any_eq_true, decide_eq_true_eq] at htaken
    rw [Except.error.injEq]
    exact (and_iff_right (List.mem_map.mpr htaken)).symm
  · rename_i hfree
    simp only [List.any_eq_true, decide_eq_true_eq] at hfree
    simp only [reduceCtorEq, false_iff, not_and]
    exact fun htaken => absurd (List.mem_map.mp htaken) hfree

/-- A declaration is added only under a name of its own. -/
theorem namesDistinct_addDeclaration {known next : List Declaration} {declaration : Declaration}
    (hknown : NamesDistinct known) (h : addDeclaration known declaration = .ok next) :
    NamesDistinct next := by
  obtain ⟨hnew, rfl⟩ := addDeclaration_eq_ok_iff.mp h
  simp only [NamesDistinct, List.map_append, List.map_cons, List.map_nil]
  refine List.Nodup.append hknown (List.nodup_singleton _) ?_
  intro name hname hother
  obtain ⟨other, hmem, rfl⟩ := List.mem_map.mp hname
  exact hnew other hmem (List.mem_singleton.mp hother)

/-- A mentioned type is added only under a name of its own. -/
theorem namesDistinct_addMentioned {declared known next : List Declaration} {t : TypeExpr}
    (hknown : NamesDistinct known) (h : addMentioned declared known t = .ok next) :
    NamesDistinct next := by
  unfold addMentioned at h
  split at h
  · cases h
    exact hknown
  · rw [bind_eq_ok_iff] at h
    obtain ⟨definition, _, h⟩ := h
    cases definition with
    | none =>
        cases h
        exact hknown
    | some definition =>
        rw [bind_eq_ok_iff] at h
        obtain ⟨closed, _, hadd⟩ := h
        exact namesDistinct_addDeclaration hknown hadd

/-- What holds when a search starts, and is kept when one more declaration is searched, holds when
it ends, and by then nothing is left to search. -/
theorem addAllMentioned_induction {declared final : List Declaration}
    (reached : List Declaration → Nat → Prop)
    (hstep : ∀ known next mentioning more, reached known next → known[next]? = some mentioning →
      (mentionedBy mentioning).foldlM (addMentioned declared) known = .ok more →
      reached more (next + 1))
    {limit next : Nat} {known : List Declaration} (hstart : reached known next)
    (h : addAllMentioned declared limit known next = .ok final) :
    ∃ last, reached final last ∧ final[last]? = none := by
  induction limit generalizing known next with
  | zero =>
      unfold addAllMentioned at h
      split at h
      · rename_i hend
        cases h
        exact ⟨next, hstart, hend⟩
      · cases h
  | succ limit ih =>
      unfold addAllMentioned at h
      split at h
      · rename_i hend
        cases h
        exact ⟨next, hstart, hend⟩
      · rename_i mentioning hnext
        obtain ⟨more, hmore, hrest⟩ := bind_eq_ok_iff.mp h
        exact ih (hstep known next mentioning more hstart hnext hmore) hrest

/-- The search for mentioned types keeps names distinct. -/
theorem namesDistinct_addAllMentioned {declared : List Declaration} {limit next : Nat}
    {known final : List Declaration} (hknown : NamesDistinct known)
    (h : addAllMentioned declared limit known next = .ok final) : NamesDistinct final := by
  obtain ⟨_, hfinal, _⟩ := addAllMentioned_induction (fun known _ => NamesDistinct known)
    (fun _ _ _ _ hdistinct _ hmore => foldlM_invariant
      (fun _ _ _ hstate hadd => namesDistinct_addMentioned hstate hadd) hdistinct hmore) hknown h
  exact hfinal

/-! ## Names are resolved to positions -/

/-- A name is found at the position of a declaration. -/
theorem positionOf?_lt {known : List Declaration} {fullName : String} {id : TypeId}
    (h : positionOf? known fullName = some id) : id < known.length := by
  unfold positionOf? at h
  rw [List.findIdx?_eq_some_iff_getElem] at h
  exact h.choose

/-- What a declaration at a position is resolved to. -/
theorem resolve_eq_ok_iff {known : List Declaration} {declaration : Declaration}
    {position : TypeId} {node : TypeNode} :
    resolve known (declaration, position) = .ok node ↔
      node.declaration = declaration ∧ resolveParent known declaration = .ok node.parent ∧
        resolveDefinition known declaration position = .ok node.definition := by
  simp only [resolve, bind_eq_ok_iff]
  constructor
  · intro hresolved
    obtain ⟨parent, hparent, definition, hdefinition, hnode⟩ := hresolved
    cases hnode
    exact ⟨rfl, hparent, hdefinition⟩
  · intro hfields
    obtain ⟨rfl, hparent, hdefinition⟩ := hfields
    exact ⟨_, hparent, _, hdefinition, rfl⟩

/-- An enclosing type is found among the declarations. -/
theorem resolveParent_lt {known : List Declaration} {declaration : Declaration} {parent : TypeId}
    (h : resolveParent known declaration = .ok (some parent)) : parent < known.length := by
  unfold resolveParent at h
  split at h
  · cases h
  · split at h
    · rename_i hfound
      cases h
      exact positionOf?_lt hfound
    · cases h

/-- A definition is found among the declarations. -/
theorem resolveDefinition_lt {known : List Declaration} {declaration : Declaration}
    {position definition : TypeId} (hposition : position < known.length)
    (h : resolveDefinition known declaration position = .ok definition) :
    definition < known.length := by
  unfold resolveDefinition at h
  split at h
  · split at h
    · rename_i hfound
      cases h
      exact positionOf?_lt hfound
    · cases h
  · cases h
    exact hposition

/-- A type that applies no definition is its own definition. -/
theorem resolveDefinition_self {known : List Declaration} {declaration : Declaration}
    {position definition : TypeId} (hclosed : declaration.generics.isClosed = false)
    (h : resolveDefinition known declaration position = .ok definition) :
    definition = position := by
  unfold resolveDefinition at h
  split at h
  · rename_i hgenerics
    simp [hgenerics, Generics.isClosed] at hclosed
  · cases h
    rfl

/-- What a declaration refers to is resolved, or its enclosing type or its definition is not
declared. -/
theorem exists_of_resolve_error {known : List Declaration} {entry : Declaration × TypeId}
    {error : BuildError} (h : resolve known entry = .error error) :
    (∃ name parent, .unknownContainingType name parent = error) ∨
      ∃ name definition, .unknownDefinition name definition = error := by
  rcases bind_eq_error_iff.mp h with hparent | ⟨parent, _, h⟩
  · unfold resolveParent at hparent
    split at hparent
    · cases hparent
    · split at hparent
      · cases hparent
      · exact Or.inl ⟨_, _, Except.error.inj hparent⟩
  · rcases bind_eq_error_iff.mp h with hdefinition | ⟨definition, _, h⟩
    · unfold resolveDefinition at hdefinition
      split at hdefinition
      · split at hdefinition
        · cases hdefinition
        · exact Or.inr ⟨_, _, Except.error.inj hdefinition⟩
      · cases hdefinition
    · cases h

/-- Every type of a graph is a declaration resolved at its position, and names are distinct. -/
theorem resolved_of_buildWithin {limit : Nat} {declarations : List Declaration}
    {graph : TypeGraph} (h : buildWithin limit declarations = .ok graph) :
    ∃ known, NamesDistinct known ∧ known.length = graph.size ∧
      ∀ id node, graph.node? id = some node →
        ∃ declaration, known[id]? = some declaration ∧
          resolve known (declaration, id) = .ok node := by
  simp only [buildWithin, bind_eq_ok_iff, mapM_eq_ok_iff] at h
  obtain ⟨declared, hdeclared, known, hknown, nodes, hnodes, hgraph⟩ := h
  cases hgraph
  have hnil : NamesDistinct [] := List.nodup_nil
  have hdistinct : NamesDistinct declared := foldlM_invariant
    (fun _ _ _ hstate hstep => namesDistinct_addDeclaration hstate hstep) hnil hdeclared
  rw [List.forall₂_iff_get] at hnodes
  obtain ⟨hlength, hresolved⟩ := hnodes
  rw [List.length_zipIdx] at hlength
  refine ⟨known, namesDistinct_addAllMentioned hdistinct hknown, hlength, ?_⟩
  intro id node hnode
  obtain ⟨hlt, hget⟩ := List.getElem?_eq_some_iff.mp hnode
  have hknownLt : id < known.length := by rw [hlength]; exact hlt
  refine ⟨known[id], List.getElem?_eq_getElem hknownLt, ?_⟩
  have hentry := hresolved id (by simpa using hknownLt) hlt
  rw [← hget]
  simpa using hentry

/-- A graph that is built is well formed. -/
theorem wellFormed_of_build {limit : Nat} {declarations : List Declaration} {graph : TypeGraph}
    (h : buildWithin limit declarations = .ok graph) : graph.WellFormed := by
  obtain ⟨known, hdistinct, hlength, hresolved⟩ := resolved_of_buildWithin h
  constructor
  case names_nodup =>
    have hdeclarations : graph.nodes.map TypeNode.declaration = known := by
      apply List.ext_getElem?
      intro id
      rw [List.getElem?_map]
      cases hnode : graph.nodes[id]? with
      | none =>
          rw [List.getElem?_eq_none_iff] at hnode
          rw [Option.map_none, eq_comm, List.getElem?_eq_none_iff, hlength]
          exact hnode
      | some node =>
          obtain ⟨declaration, hdeclaration, hresolve⟩ := hresolved id node hnode
          rw [hdeclaration, Option.map_some, (resolve_eq_ok_iff.mp hresolve).1]
    rw [hdeclarations]
    exact hdistinct
  case parent_lt =>
    intro id parent hparent
    obtain ⟨node, hnode, hnodeParent⟩ := Option.bind_eq_some_iff.mp hparent
    obtain ⟨declaration, _, hresolve⟩ := hresolved id node hnode
    have hfound := (resolve_eq_ok_iff.mp hresolve).2.1
    rw [hnodeParent] at hfound
    exact hlength ▸ resolveParent_lt hfound
  case definition_lt =>
    intro id hid
    have hnode : graph.node? id = some graph.nodes[id] := List.getElem?_eq_getElem hid
    obtain ⟨declaration, _, hresolve⟩ := hresolved id _ hnode
    have hfound := resolveDefinition_lt (hlength ▸ hid) (resolve_eq_ok_iff.mp hresolve).2.2
    simpa [definitionOf, hnode, hlength] using hfound
  case definition_self =>
    intro id node hnode hclosed
    obtain ⟨declaration, _, hresolve⟩ := hresolved id node hnode
    obtain ⟨rfl, _, hdefinition⟩ := resolve_eq_ok_iff.mp hresolve
    simpa [definitionOf, hnode] using resolveDefinition_self hclosed hdefinition

/-! ## Positions and names -/

variable {graph : TypeGraph}

/-- A position stands for a type exactly if it is below the number of types. -/
theorem exists_node_iff {id : TypeId} : (∃ node, graph.node? id = some node) ↔ id < graph.size := by
  simp [node?, size, List.getElem?_eq_some_iff]

/-- A position that is not below the number of types stands for none. -/
theorem node?_eq_none {id : TypeId} (h : ¬ id < graph.size) : graph.node? id = none :=
  List.getElem?_eq_none (Nat.le_of_not_lt h)

/-- A position of the graph is below the number of types. -/
@[simp] theorem mem_ids {id : TypeId} : id ∈ graph.ids ↔ id < graph.size := List.mem_range

/-- The full name of a type is that of its declaration. -/
theorem fullName_of_node {id : TypeId} {node : TypeNode} (h : graph.node? id = some node) :
    graph.fullName id = node.declaration.fullName := by
  simp [fullName, h]

/-- Types of one full name are one type. -/
theorem WellFormed.fullName_inj (hgraph : graph.WellFormed) {first second : TypeId}
    (hfirst : first < graph.size) (hsecond : second < graph.size)
    (h : graph.fullName first = graph.fullName second) : first = second := by
  have hnames := hgraph.names_nodup
  rw [NamesDistinct, List.map_map] at hnames
  have hlength :
      first < (graph.nodes.map (Declaration.fullName ∘ TypeNode.declaration)).length := by
    rw [List.length_map]
    exact hfirst
  apply (List.getElem?_inj hlength hnames).mp
  have hfirstNode : graph.nodes[first]? = some graph.nodes[first] := List.getElem?_eq_getElem hfirst
  have hsecondNode : graph.nodes[second]? = some graph.nodes[second] :=
    List.getElem?_eq_getElem hsecond
  rw [fullName_of_node hfirstNode, fullName_of_node hsecondNode] at h
  rw [List.getElem?_map, List.getElem?_map, hfirstNode, hsecondNode]
  exact congrArg some h

end RadioBroker.TypeGraph
