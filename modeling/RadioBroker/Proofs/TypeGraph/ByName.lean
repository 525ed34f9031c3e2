import RadioBroker.Proofs.TypeGraph.WellFormed

/-!
# Types by name

The positions in a graph that is built stand for names: a type is found by its full name, its
enclosing type is the one that its declaration names, and so is its definition.
-/

namespace RadioBroker

/-- The full name of the definition that a declaration applies, or is. -/
def Declaration.definitionName (declaration : Declaration) : String :=
  match declaration.generics with
  | .closedOver definition _ => definition
  | _ => declaration.fullName

namespace TypeGraph

variable {limit : Nat} {given : List Declaration} {graph : TypeGraph} {id : TypeId}
  {node : TypeNode}

/-- The declarations of the types of a graph, in order. -/
def declarations (graph : TypeGraph) : List Declaration := graph.nodes.map TypeNode.declaration

/-- There are as many declarations as types. -/
@[simp] theorem length_declarations (graph : TypeGraph) :
    graph.declarations.length = graph.size := List.length_map _

/-! ## Names found among declarations -/

/-- Declarations are added one behind the other. -/
theorem foldlM_addDeclaration {known declared : List Declaration}
    (h : given.foldlM addDeclaration known = .ok declared) : declared = known ++ given := by
  induction given generalizing known with
  | nil =>
      cases h
      rw [List.append_nil]
  | cons declaration given ih =>
      rw [List.foldlM_cons, bind_eq_ok_iff] at h
      obtain ⟨next, hnext, hrest⟩ := h
      obtain ⟨_, rfl⟩ := addDeclaration_eq_ok_iff.mp hnext
      rw [ih hrest, List.append_assoc, List.singleton_append]

/-- A name is found at the position of the declaration that has it. -/
theorem positionOf?_eq_some {known : List Declaration} {fullName : String}
    (h : positionOf? known fullName = some id) :
    ∃ declaration, known[id]? = some declaration ∧ declaration.fullName = fullName := by
  unfold positionOf? at h
  obtain ⟨hlt, hname, _⟩ := List.findIdx?_eq_some_iff_getElem.mp h
  exact ⟨known[id], List.getElem?_eq_getElem hlt, of_decide_eq_true hname⟩

/-- What is built from declarations: these, and the closed types that are mentioned. -/
theorem declarations_of_build (h : buildWithin limit given = .ok graph) :
    NamesDistinct given ∧
      addAllMentioned given limit given 0 = .ok graph.declarations ∧
      ∀ id node, graph.node? id = some node →
        resolve graph.declarations (node.declaration, id) = .ok node := by
  simp only [buildWithin, bind_eq_ok_iff, mapM_eq_ok_iff] at h
  obtain ⟨declared, hdeclared, known, hknown, nodes, hnodes, hgraph⟩ := h
  cases hgraph
  have hnil : NamesDistinct [] := List.nodup_nil
  have hdistinct : NamesDistinct declared := foldlM_invariant
    (fun _ _ _ hstate hstep => namesDistinct_addDeclaration hstate hstep) hnil hdeclared
  have hdeclaredEq := foldlM_addDeclaration hdeclared
  rw [List.nil_append] at hdeclaredEq
  subst hdeclaredEq
  obtain ⟨hlength, hresolved⟩ := List.forall₂_iff_get.mp hnodes
  rw [List.length_zipIdx] at hlength
  have hnode : ∀ (id : TypeId) (hid : id < nodes.length), ∃ hknownLt : id < known.length,
      resolve known (known[id], id) = .ok nodes[id] := by
    intro id hid
    have hknownLt : id < known.length := by rwa [hlength]
    have hentry := hresolved id (by rwa [List.length_zipIdx]) hid
    exact ⟨hknownLt, by simpa using hentry⟩
  have hdeclarations : TypeGraph.declarations ⟨nodes⟩ = known := by
    refine List.ext_getElem (by rw [declarations, List.length_map, hlength]) ?_
    intro id hid _
    rw [declarations, List.length_map] at hid
    obtain ⟨_, hresolve⟩ := hnode id hid
    simp only [declarations, List.getElem_map]
    exact (resolve_eq_ok_iff.mp hresolve).1
  rw [hdeclarations]
  refine ⟨hdistinct, hknown, ?_⟩
  intro id node hfound
  obtain ⟨hid, rfl⟩ := List.getElem?_eq_some_iff.mp hfound
  obtain ⟨_, hresolve⟩ := hnode id hid
  rwa [← (resolve_eq_ok_iff.mp hresolve).1] at hresolve

/-! ## Relations by name -/

/-- The full name at a position is that of the declaration there. -/
theorem fullName_of_declarations {declaration : Declaration}
    (h : graph.declarations[id]? = some declaration) :
    graph.fullName id = declaration.fullName := by
  rw [declarations, List.getElem?_map, Option.map_eq_some_iff] at h
  obtain ⟨node, hnode, rfl⟩ := h
  exact fullName_of_node hnode

/-- The enclosing type of a type has the name that is declared. -/
theorem parent_of_build (h : buildWithin limit given = .ok graph)
    (hnode : graph.node? id = some node) :
    node.parent.map graph.fullName = node.declaration.containingType := by
  obtain ⟨_, _, hresolved⟩ := declarations_of_build h
  have hparent := (resolve_eq_ok_iff.mp (hresolved id node hnode)).2.1
  unfold resolveParent at hparent
  split at hparent
  · rename_i hnone
    rw [hnone, ← Except.ok.inj hparent, Option.map_none]
  · rename_i parent hsome
    split at hparent
    · rename_i position hposition
      obtain ⟨declaration, hfound, hname⟩ := positionOf?_eq_some hposition
      rw [hsome, ← Except.ok.inj hparent, Option.map_some, fullName_of_declarations hfound, hname]
    · cases hparent

/-- The definition of a type has the name that is declared. -/
theorem definition_of_build (h : buildWithin limit given = .ok graph)
    (hnode : graph.node? id = some node) :
    graph.fullName node.definition = node.declaration.definitionName := by
  obtain ⟨_, _, hresolved⟩ := declarations_of_build h
  have hdefinition := (resolve_eq_ok_iff.mp (hresolved id node hnode)).2.2
  unfold resolveDefinition at hdefinition
  unfold Declaration.definitionName
  cases hgenerics : node.declaration.generics with
  | closedOver definition arguments =>
      simp only [hgenerics] at hdefinition
      split at hdefinition
      · rename_i position hposition
        obtain ⟨declaration, hfound, hname⟩ := positionOf?_eq_some hposition
        rw [← Except.ok.inj hdefinition, fullName_of_declarations hfound, hname]
      · cases hdefinition
  | notGeneric =>
      simp only [hgenerics] at hdefinition
      rw [← Except.ok.inj hdefinition, fullName_of_node hnode]
  | openOver parameters =>
      simp only [hgenerics] at hdefinition
      rw [← Except.ok.inj hdefinition, fullName_of_node hnode]

/-- A type is found by its full name. -/
theorem declared?_eq_some_iff (hgraph : graph.WellFormed) {fullName : String} :
    graph.declared? fullName = some node ↔
      ∃ id, graph.node? id = some node ∧ node.declaration.fullName = fullName := by
  constructor
  · intro hfound
    rw [declared?] at hfound
    have hname := List.find?_some hfound
    obtain ⟨id, hid⟩ := List.mem_iff_getElem?.mp (List.mem_of_find?_eq_some hfound)
    exact ⟨id, hid, of_decide_eq_true hname⟩
  · rintro ⟨id, hnode, hname⟩
    rw [declared?]
    cases hother : graph.nodes.find? _ with
    | none =>
        have hnone := List.find?_eq_none.mp hother node (List.mem_of_getElem? hnode)
        simp [hname] at hnone
    | some other =>
        obtain ⟨position, hposition⟩ := List.mem_iff_getElem?.mp (List.mem_of_find?_eq_some hother)
        have hfound := List.find?_some hother
        have hotherName : other.declaration.fullName = fullName := of_decide_eq_true hfound
        have hsame : position = id := by
          refine hgraph.fullName_inj (exists_node_iff.mp ⟨other, hposition⟩)
            (exists_node_iff.mp ⟨node, hnode⟩) ?_
          rw [fullName_of_node hposition, fullName_of_node hnode, hotherName, hname]
        rw [hsame] at hposition
        exact hposition.symm.trans hnode

end TypeGraph

end RadioBroker
