import RadioBroker.Declaration.Basic

/-!
# The graph of declared types

Declared types with the two relations between them that names establish: the type that encloses a
type, and the definition that a closed type applies. Types are referred to by their position.
`TypeGraph.allInterfaces` lists the interfaces a type extends, directly or through others.
-/

namespace RadioBroker

/-- The position of a type in its graph. -/
abbrev TypeId := Nat

/-- A declared type and the types it refers to. -/
structure TypeNode where
  declaration : Declaration
  /-- The enclosing type. -/
  parent : Option TypeId
  /-- The definition a closed type applies; any other type is its own definition. -/
  definition : TypeId
deriving DecidableEq, Repr

/-- Declared types in order. -/
structure TypeGraph where
  nodes : List TypeNode
deriving DecidableEq, Repr

namespace TypeGraph

/-- The number of types. -/
def size (graph : TypeGraph) : Nat := graph.nodes.length

/-- All types, in order. -/
def ids (graph : TypeGraph) : List TypeId := List.range graph.size

/-- The type at a position. -/
def node? (graph : TypeGraph) (id : TypeId) : Option TypeNode := graph.nodes[id]?

/-- The position of the type with a full name. -/
def find? (graph : TypeGraph) (fullName : String) : Option TypeId :=
  graph.nodes.findIdx? fun node => node.declaration.fullName = fullName

/-- The type with a full name. -/
def declared? (graph : TypeGraph) (fullName : String) : Option TypeNode :=
  graph.nodes.find? fun node => node.declaration.fullName = fullName

/-- The enclosing type. -/
def parent? (graph : TypeGraph) (id : TypeId) : Option TypeId :=
  (graph.node? id).bind TypeNode.parent

/-- The definition of a type. -/
def definitionOf (graph : TypeGraph) (id : TypeId) : TypeId :=
  ((graph.node? id).map TypeNode.definition).getD id

/-- The full name of a type. -/
def fullName (graph : TypeGraph) (id : TypeId) : String :=
  ((graph.node? id).map fun node => node.declaration.fullName).getD ""

/-- The types that enclose `id`, innermost first, at most `steps` of them. -/
def climb (graph : TypeGraph) : (steps : Nat) → (id : TypeId) → List TypeId
  | 0, _ => []
  | steps + 1, id =>
    match graph.parent? id with
    | none => []
    | some parent => parent :: graph.climb steps parent

/-- The types that enclose a type, innermost first. No type is nested deeper than there are
types. -/
def ancestors (graph : TypeGraph) (id : TypeId) : List TypeId :=
  graph.climb graph.size id

/-- All types that extension lists mention. -/
def mentioned (graph : TypeGraph) : List TypeExpr :=
  graph.nodes.flatMap fun node => node.declaration.interfaces

/-- The extension list of the type declared under the written form of `t`. A type that is not
declared takes part by its name only. -/
def extensionsOf (graph : TypeGraph) (t : TypeExpr) : List TypeExpr :=
  match graph.declared? t.display with
  | none => []
  | some node => node.declaration.interfaces

/-- No extension list mentions more types than all of them together. -/
theorem length_extensionsOf_le (graph : TypeGraph) (t : TypeExpr) :
    (graph.extensionsOf t).length ≤ graph.mentioned.length := by
  rw [extensionsOf]
  split
  · exact Nat.zero_le _
  · rename_i node hnode
    obtain ⟨before, behind, hnodes⟩ := List.append_of_mem (List.mem_of_find?_eq_some hnode)
    rw [mentioned, hnodes, List.flatMap_append, List.flatMap_cons]
    simp only [List.length_append]
    omega

/-- The types other than `t`. -/
def without (t : TypeExpr) (types : List TypeExpr) : List TypeExpr := types.filter (· ≠ t)

/-- A visit leaves fewer types unvisited. -/
theorem length_without_lt {types : List TypeExpr} {t : TypeExpr} (hmem : t ∈ types) :
    (without t types).length < types.length :=
  List.length_filter_lt_length_iff_exists.mpr ⟨t, hmem, by simp⟩

/-- A visit pays for the extension list that it adds: each type that is unvisited is worth one type
more than any of these lists has. -/
theorem visit_pays (graph : TypeGraph) {unvisited : List TypeExpr} {t : TypeExpr}
    (hmem : t ∈ unvisited) (rest : List TypeExpr) :
    (without t unvisited).length * (graph.mentioned.length + 1) +
        (graph.extensionsOf t ++ rest).length <
      unvisited.length * (graph.mentioned.length + 1) + (t :: rest).length := by
  have hadded := graph.length_extensionsOf_le t
  have hworth := Nat.mul_le_mul_right (graph.mentioned.length + 1) (length_without_lt hmem)
  rw [Nat.succ_mul] at hworth
  rw [List.length_append, List.length_cons]
  omega

/-- Visits mentioned types depth first: each type of the list that is `unvisited` yet, and behind
it the types that it extends. -/
def preorder (graph : TypeGraph) (unvisited : List TypeExpr) : List TypeExpr → List TypeExpr
  | [] => []
  | t :: rest =>
    if t ∈ unvisited then
      t :: graph.preorder (without t unvisited) (graph.extensionsOf t ++ rest)
    else graph.preorder unvisited rest
termination_by list => unvisited.length * (graph.mentioned.length + 1) + list.length
decreasing_by
  · rename_i hmem
    exact graph.visit_pays hmem rest
  · exact Nat.add_lt_add_left (Nat.lt_succ_self _) _

/-- The interfaces a type extends, directly or through others, in depth-first order and each of
them once. -/
def allInterfaces (graph : TypeGraph) (id : TypeId) : List TypeExpr :=
  match graph.node? id with
  | none => []
  | some node => graph.preorder graph.mentioned node.declaration.interfaces

end TypeGraph

end RadioBroker
