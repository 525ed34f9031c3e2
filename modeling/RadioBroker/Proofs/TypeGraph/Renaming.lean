import RadioBroker.Proofs.Declaration.Renaming
import RadioBroker.Proofs.TypeGraph.Interfaces
import RadioBroker.Proofs.TypeGraph.Joining

/-!
# Graphs with other names for parameters

Declarations are built after a renaming of parameters as they were before, into a graph that differs
in the names alone, unless a type that is applied is written like the definition that is renamed.
The interfaces of a type are found by how they are written. They are the renamed ones where no
interface is written like the definition, and where none that is declared is written with its
parameters. -/

namespace RadioBroker.ParameterRenaming

open TypeGraph

variable {r : ParameterRenaming} {given known more final : List Declaration}
  {declaration : Declaration} {name : String} {t : TypeExpr}

/-! ## The search for mentioned types after the renaming -/

/-- A definition stays one over as many parameters. -/
theorem isOpenOver_declaration (r : ParameterRenaming) (declaration : Declaration) (arity : Nat) :
    isOpenOver (r.declaration declaration) arity =
      isOpenOver declaration arity := by
  have hlength : (r.declaration declaration).generics.parameters.length =
      declaration.generics.parameters.length := by
    show (r.generics declaration).parameters.length = _
    unfold ParameterRenaming.generics
    cases declaration.generics with
    | openOver parameters =>
        simp only [Generics.parameters, parametersIn]
        split <;> simp
    | notGeneric | closedOver => rfl
  rw [isOpenOver, isOpenOver, isOpen_declaration, hlength]

/-- The types that are mentioned for being applied stay the same. -/
theorem Fresh.mentionedBy_declaration (h : r.Fresh declaration) :
    mentionedBy (r.declaration declaration) = mentionedBy declaration := by
  unfold mentionedBy
  rw [isOpen_declaration]
  split
  · rfl
  · rename_i hclosed
    have hname : declaration.fullName ≠ r.definition := fun heq =>
      hclosed (by rw [Declaration.isOpen, h.generics heq]; rfl)
    show ((declaration.interfaces.map (r.typeIn declaration)).filter _) = _
    rw [typeIn_of_ne hname, List.map_id]

/-- A name is known after the renaming exactly if it was. -/
theorem Consistent.any_map_declaration (h : r.Consistent given)
    (ht : t.Renamable r.parameters r.rename) (hname : t.display ≠ r.definition)
    (known : List Declaration) :
    ((known.map r.declaration).any fun other => other.fullName = t.display) =
      known.any fun other => other.fullName = t.display := by
  rw [List.any_map]
  congr 1
  funext other
  exact decide_eq_decide.mpr (h.fullName_eq_display_iff ht hname)

/-- The renamed definition is meant where the definition was. -/
theorem Consistent.definitionFor_map (h : r.Consistent given) {found : Option Declaration}
    (hfound : definitionFor given t = .ok found) :
    definitionFor (given.map r.declaration) t = .ok (found.map r.declaration) := by
  have hfamily :
      (given.map r.declaration).filter (fun declaration => declaration.familyName = t.head) =
      (given.filter fun declaration => declaration.familyName = t.head).map r.declaration := by
    rw [List.filter_map]
    simp only [Function.comp_def, h.familyName_declaration]
  unfold definitionFor at hfound ⊢
  rw [hfamily]
  cases hgiven : given.filter fun declaration => declaration.familyName = t.head with
  | nil =>
      rw [hgiven] at hfound
      cases hfound
      rfl
  | cons first others =>
      rw [hgiven] at hfound
      simp only [List.map_cons] at hfound ⊢
      rw [← List.map_cons, List.find?_map]
      simp only [Function.comp_def, isOpenOver_declaration]
      cases hfirst : (first :: others).find? fun declaration => isOpenOver declaration t.arity with
      | none =>
          rw [hfirst] at hfound
          cases hfound
      | some definition =>
          rw [hfirst] at hfound
          cases hfound
          rfl

/-- A mentioned type is added after the renaming as it was before. -/
theorem Consistent.addMentioned_map (h : r.Consistent given) (hgiven : given ⊆ known)
    (hknown : ∀ declaration ∈ known, r.Fresh declaration) (ht : t.Renamable r.parameters r.rename)
    (harity : 0 < t.arity) (hname : t.display ≠ r.definition)
    (hadd : addMentioned given known t = .ok more) :
    addMentioned (given.map r.declaration) (known.map r.declaration) t =
      .ok (more.map r.declaration) ∧
      ∀ declaration ∈ more, r.Fresh declaration := by
  unfold addMentioned at hadd ⊢
  rw [h.any_map_declaration ht hname]
  split at hadd
  · rename_i htaken
    cases hadd
    rw [if_pos htaken]
    exact ⟨rfl, hknown⟩
  · rename_i hfree
    rw [if_neg hfree]
    obtain ⟨found, hfound, hadd⟩ := bind_eq_ok_iff.mp hadd
    rw [h.definitionFor_map hfound]
    cases found with
    | none =>
        cases hadd
        exact ⟨rfl, hknown⟩
    | some definition =>
        obtain ⟨closed, hclose, hadd⟩ := bind_eq_ok_iff.mp hadd
        obtain ⟨hdefinition, hfamily, _⟩ := cases_of_definitionFor hfound
        have hclosed := mapError_eq_ok_iff.mp hclose
        obtain ⟨hnew, rfl⟩ := addDeclaration_eq_ok_iff.mp hadd
        obtain ⟨parameters, _, _, rfl⟩ := Declaration.close_eq_ok_iff.mp hclosed
        -- The definition that is renamed is known, so what is added has another name.
        have hother : definition.closedName t.arguments ≠ r.definition := by
          obtain ⟨declared, hdeclared, hdeclaredName⟩ := h.declared
          exact fun heq => hnew declared (hgiven hdeclared) (hdeclaredName.trans heq.symm)
        have hdisplay : definition.closedName t.arguments =
            TypeExpr.display ⟨t.head, t.arguments, ""⟩ := by
          rw [TypeExpr.display_mk, if_neg (List.ne_nil_of_length_pos harity), String.append_empty,
            ← hfamily]
          rfl
        have hfresh : r.Fresh (definition.closeOver parameters t.arguments) :=
          h.fresh_closeOver (h.fresh definition hdefinition) ht.unmarked
            (fun argument hargument => ht.of_mem hargument) hdisplay hother
        refine ⟨bind_eq_ok_iff.mpr ⟨_, rfl, bind_eq_ok_iff.mpr
          ⟨_, mapError_eq_ok_iff.mpr
            (h.close_declaration (h.fresh definition hdefinition) hother hclosed),
            addDeclaration_eq_ok_iff.mpr ⟨?_, List.map_append⟩⟩⟩, ?_⟩
        · intro renamed hrenamed hname
          obtain ⟨earlier, hearlier, rfl⟩ := List.mem_map.mp hrenamed
          exact hnew earlier hearlier
            ((fullName_inj (hknown earlier hearlier).untaken hfresh.untaken).mp hname)
        · exact List.forall_mem_append.mpr ⟨hknown, List.forall_mem_singleton.mpr hfresh⟩

/-- Types that are mentioned one after another are added after the renaming as they were before. -/
theorem Consistent.foldlM_addMentioned_map (h : r.Consistent given) {ts : List TypeExpr}
    (hgiven : given ⊆ known) (hknown : ∀ declaration ∈ known, r.Fresh declaration)
    (hts : ∀ t ∈ ts, t.Renamable r.parameters r.rename ∧ 0 < t.arity ∧ t.display ≠ r.definition)
    (hadd : ts.foldlM (addMentioned given) known = .ok more) :
    ts.foldlM (addMentioned (given.map r.declaration)) (known.map r.declaration) =
        .ok (more.map r.declaration) ∧
      ∀ declaration ∈ more, r.Fresh declaration := by
  induction ts generalizing known with
  | nil =>
      cases hadd
      exact ⟨rfl, hknown⟩
  | cons t ts ih =>
      obtain ⟨⟨ht, harity, hname⟩, hrest⟩ := List.forall_mem_cons.mp hts
      rw [List.foldlM_cons, bind_eq_ok_iff] at hadd
      obtain ⟨next, hnext, hadd⟩ := hadd
      obtain ⟨hmap, hfresh⟩ := h.addMentioned_map hgiven hknown ht harity hname hnext
      obtain ⟨hgrows, _⟩ := addMentioned_cases hgiven hnext
      obtain ⟨hlater, hall⟩ := ih (List.Subset.trans hgiven hgrows.subset) hfresh hrest hadd
      refine ⟨?_, hall⟩
      rw [List.foldlM_cons, bind_eq_ok_iff]
      exact ⟨_, hmap, hlater⟩

/-- No type that is applied is written like the definition that is renamed. -/
def Unapplied (r : ParameterRenaming) (known : List Declaration) : Prop :=
  ∀ declaration ∈ known, ∀ t ∈ mentionedBy declaration, t.display ≠ r.definition

/-- A search finds after the renaming what it found before. -/
theorem Consistent.addAllMentioned_map (h : r.Consistent given) {limit next : Nat}
    (hgiven : given ⊆ known) (hknown : ∀ declaration ∈ known, r.Fresh declaration)
    (hunapplied : r.Unapplied final)
    (hfinal : addAllMentioned given limit known next = .ok final) :
    addAllMentioned (given.map r.declaration) limit (known.map r.declaration) next =
        .ok (final.map r.declaration) ∧
      ∀ declaration ∈ final, r.Fresh declaration := by
  have hgrows := prefix_of_addAllMentioned hfinal
  induction limit generalizing known next with
  | zero =>
      unfold addAllMentioned at hfinal ⊢
      rw [List.getElem?_map]
      cases hnext : known[next]? with
      | none =>
          rw [hnext] at hfinal
          cases hfinal
          exact ⟨rfl, hknown⟩
      | some mentioning =>
          rw [hnext] at hfinal
          cases hfinal
  | succ limit ih =>
      unfold addAllMentioned at hfinal ⊢
      rw [List.getElem?_map]
      cases hnext : known[next]? with
      | none =>
          rw [hnext] at hfinal
          cases hfinal
          exact ⟨rfl, hknown⟩
      | some mentioning =>
          rw [hnext] at hfinal
          obtain ⟨more, hmore, hrest⟩ := bind_eq_ok_iff.mp hfinal
          have hmem := List.mem_of_getElem? hnext
          have hmentioned : ∀ t ∈ mentionedBy mentioning,
              t.Renamable r.parameters r.rename ∧ 0 < t.arity ∧ t.display ≠ r.definition := by
            intro t ht
            obtain ⟨_, hinterface, harity⟩ := mem_mentionedBy_iff.mp ht
            exact ⟨(hknown mentioning hmem).types t (List.mem_append_left _ hinterface), harity,
              hunapplied mentioning (hgrows.subset hmem) t ht⟩
          obtain ⟨hmap, hfresh⟩ := h.foldlM_addMentioned_map hgiven hknown hmentioned hmore
          have hsubset := List.Subset.trans hgiven (foldlM_addMentioned_cases hgiven hmore).1.subset
          obtain ⟨hlater, hall⟩ := ih hsubset hfresh hrest (prefix_of_addAllMentioned hrest)
          refine ⟨bind_eq_ok_iff.mpr ⟨_, ?_, hlater⟩, hall⟩
          rw [(hknown mentioning hmem).mentionedBy_declaration]
          exact hmap

/-! ## Graphs after the renaming -/

/-- A type of a graph after the renaming. -/
def node (r : ParameterRenaming) (node : TypeNode) : TypeNode :=
  { node with declaration := r.declaration node.declaration }

/-- A graph after the renaming: each type keeps its place. -/
def graph (r : ParameterRenaming) (graph : TypeGraph) : TypeGraph := ⟨graph.nodes.map r.node⟩

/-- A name stands for the same position after the renaming. -/
theorem positionOf?_map {id : TypeId} (hknown : ∀ declaration ∈ known, r.Fresh declaration)
    (h : positionOf? known name = some id) :
    positionOf? (known.map r.declaration) (r.fullName name) = some id := by
  obtain ⟨hlt, hname, hbefore⟩ := List.findIdx?_eq_some_iff_getElem.mp h
  have hname : known[id].fullName = name := of_decide_eq_true hname
  have huntaken : r.Untaken name := hname ▸ (hknown _ (List.getElem_mem hlt)).untaken
  refine List.findIdx?_eq_some_iff_getElem.mpr ⟨by rwa [List.length_map], ?_,
    fun position hposition => ?_⟩
  · rw [List.getElem_map]
    exact decide_eq_true (congrArg r.fullName hname)
  · have hother := hbefore position hposition
    simp only [decide_eq_true_eq, List.getElem_map] at hother ⊢
    intro heq
    exact hother ((fullName_inj (hknown _ (List.getElem_mem _)).untaken huntaken).mp heq)

/-- A declaration refers to the same positions after the renaming. -/
theorem resolve_map {id : TypeId} {resolved : TypeNode}
    (hknown : ∀ declaration ∈ known, r.Fresh declaration)
    (h : resolve known (declaration, id) = .ok resolved) :
    resolve (known.map r.declaration) (r.declaration declaration, id) = .ok (r.node resolved) := by
  obtain ⟨rfl, hparent, hdefinition⟩ := resolve_eq_ok_iff.mp h
  refine resolve_eq_ok_iff.mpr ⟨rfl, ?_, ?_⟩
  · unfold resolveParent at hparent ⊢
    simp only [ParameterRenaming.declaration]
    cases hcontaining : resolved.declaration.containingType with
    | none =>
        rw [hcontaining] at hparent
        exact hparent
    | some parent =>
        simp only [hcontaining, Option.map_some] at hparent ⊢
        split at hparent
        · rename_i position hposition
          rw [positionOf?_map hknown hposition]
          exact hparent
        · cases hparent
  · unfold resolveDefinition at hdefinition ⊢
    simp only [ParameterRenaming.declaration, generics]
    cases hgenerics : resolved.declaration.generics with
    | closedOver definition arguments =>
        simp only [hgenerics] at hdefinition ⊢
        split at hdefinition
        · rename_i position hposition
          rw [positionOf?_map hknown hposition]
          exact hdefinition
        · cases hdefinition
    | notGeneric | openOver parameters =>
        rw [hgenerics] at hdefinition
        exact hdefinition

/-- Declarations of distinct names have distinct names after the renaming. -/
theorem namesDistinct_map (hknown : ∀ declaration ∈ known, r.Fresh declaration)
    (h : NamesDistinct known) : NamesDistinct (known.map r.declaration) := by
  have hnames : (known.map r.declaration).map Declaration.fullName =
      (known.map Declaration.fullName).map r.fullName := by
    rw [List.map_map, List.map_map]
    rfl
  rw [NamesDistinct, hnames]
  refine List.Nodup.map_on ?_ h
  intro first hfirst second hsecond heq
  obtain ⟨declaration, hmem, rfl⟩ := List.mem_map.mp hfirst
  obtain ⟨other, hother, rfl⟩ := List.mem_map.mp hsecond
  exact (fullName_inj (hknown declaration hmem).untaken (hknown other hother).untaken).mp heq

/-- Declarations are built after the renaming as they were before, unless a type that is applied is
written like the definition that is renamed. -/
theorem Consistent.build_map (h : r.Consistent given) {built : TypeGraph}
    (hbuild : build given = .ok built) (hunapplied : r.Unapplied built.declarations) :
    build (given.map r.declaration) = .ok (r.graph built) ∧
      ∀ declaration ∈ built.declarations, r.Fresh declaration := by
  obtain ⟨hdistinct, hsearch, hresolved⟩ := declarations_of_build hbuild
  obtain ⟨hmap, hfresh⟩ := h.addAllMentioned_map (List.Subset.refl _) h.fresh hunapplied hsearch
  refine ⟨buildWithin_of_search (namesDistinct_map h.fresh hdistinct) hmap ?_, hfresh⟩
  rw [mapM_eq_ok_iff, List.forall₂_iff_get]
  refine ⟨by simp [size], fun id hid hnode => ?_⟩
  have hlt : id < built.nodes.length := by simpa using hnode
  have hentry := resolve_map hfresh (hresolved id built.nodes[id] (List.getElem?_eq_getElem hlt))
  simp only [declarations] at hentry ⊢
  simp only [List.get_eq_getElem, List.getElem_map, List.getElem_zipIdx, Nat.zero_add]
  exact hentry

/-! ## Places in the graph after the renaming -/

variable {built : TypeGraph} {id : TypeId} {node : TypeNode}

@[simp] theorem size_graph (r : ParameterRenaming) (built : TypeGraph) :
    (r.graph built).size = built.size := List.length_map _

@[simp] theorem ids_graph (r : ParameterRenaming) (built : TypeGraph) :
    (r.graph built).ids = built.ids := by
  rw [ids, size_graph, ids]

/-- A type of the renamed graph is the type at its place, renamed. -/
@[simp] theorem node?_graph (r : ParameterRenaming) (built : TypeGraph) (id : TypeId) :
    (r.graph built).node? id = (built.node? id).map r.node := List.getElem?_map

/-- A type of the renamed graph is nested as it was. -/
@[simp] theorem parent?_graph (r : ParameterRenaming) (built : TypeGraph) (id : TypeId) :
    (r.graph built).parent? id = built.parent? id := by
  rw [parent?, node?_graph, parent?]
  cases built.node? id <;> rfl

/-- A type is enclosed by the types at the same positions. -/
@[simp] theorem ancestors_graph (r : ParameterRenaming) (built : TypeGraph) (id : TypeId) :
    (r.graph built).ancestors id = built.ancestors id := by
  have hclimb : ∀ steps id, (r.graph built).climb steps id = built.climb steps id := by
    intro steps
    induction steps with
    | zero => exact fun _ => rfl
    | succ steps ih =>
        intro id
        rw [climb, parent?_graph, climb]
        cases built.parent? id with
        | none => rfl
        | some parent => exact congrArg (parent :: ·) (ih parent)
  rw [ancestors, size_graph, hclimb, ancestors]

/-- The type at a position has the renamed name. -/
theorem fullName_graph (r : ParameterRenaming) (hid : id < built.size) :
    (r.graph built).fullName id = r.fullName (built.fullName id) := by
  obtain ⟨node, hnode⟩ := exists_node_iff.mpr hid
  rw [TypeGraph.fullName, node?_graph, hnode, fullName_of_node hnode]
  rfl

/-! ## Interfaces after the renaming -/

/-- A graph in whose declarations the new names are not used either. -/
structure ConsistentIn (r : ParameterRenaming) (given : List Declaration) (built : TypeGraph) :
    Prop extends r.Consistent given where
  wellFormed : built.WellFormed
  declarations_fresh : ∀ declaration ∈ built.declarations, r.Fresh declaration

/-- An interface of a type is not written like the definition that is renamed, and if it is
declared, neither it nor what it extends and what its methods take is changed with the type. -/
structure BaseApart (r : ParameterRenaming) (built : TypeGraph) (declaration : Declaration)
    (t : TypeExpr) : Prop where
  before : t.display ≠ r.definition
  after : (r.typeIn declaration t).display ≠ r.renamed
  kept : ∀ base, built.declared? t.display = some base →
    ∀ s ∈ t :: base.declaration.interfaces ++ base.declaration.methods.flatMap Method.parameters,
      r.typeIn declaration s = s

namespace ConsistentIn

/-- A declaration of the graph uses no new name. -/
theorem fresh_of_node (h : r.ConsistentIn given built) (hnode : node ∈ built.nodes) :
    r.Fresh node.declaration :=
  h.declarations_fresh _ (List.mem_map_of_mem hnode)

/-- No mentioned type uses a new name. -/
theorem renamable_of_mentioned (h : r.ConsistentIn given built) (ht : t ∈ built.mentioned) :
    t.Renamable r.parameters r.rename := by
  obtain ⟨node, hnode, hmem⟩ := List.mem_flatMap.mp ht
  exact (h.fresh_of_node hnode).types t (List.mem_append_left _ hmem)

/-- Different types without new names stay different. -/
theorem typeIn_injective (h : r.ConsistentIn given built) {s t : TypeExpr}
    (hs : s.Renamable r.parameters r.rename) (ht : t.Renamable r.parameters r.rename)
    (heq : r.typeIn declaration s = r.typeIn declaration t) : s = t := by
  unfold typeIn at heq
  split at heq
  · exact TypeExpr.renamed_injective h.newNames hs.unused ht.unused heq
  · exact heq

/-- An interface is declared after the renaming if it was declared before. -/
theorem declared?_graph (h : r.ConsistentIn given built) (ht : t.Renamable r.parameters r.rename)
    (hapart : r.BaseApart built declaration t) :
    (r.graph built).declared? (r.typeIn declaration t).display =
      (built.declared? t.display).map r.node := by
  by_cases hself : r.typeIn declaration t = t
  · rw [hself, declared?, ParameterRenaming.graph, List.find?_map, declared?]
    congr 2
    funext node
    exact decide_eq_decide.mpr (h.fullName_eq_display_iff ht hapart.before)
  · have hbefore : built.declared? t.display = none := by
      cases hdeclared : built.declared? t.display with
      | none => rfl
      | some base => exact absurd (hapart.kept base hdeclared t List.mem_cons_self) hself
    -- The type has a new name in it now, which stands in no full name but the new one.
    have hname : declaration.fullName = r.definition := by
      by_contra hne
      exact hself (congrFun (typeIn_of_ne hne) t)
    have hafter := hapart.after
    rw [typeIn_of_eq hname] at hself hafter ⊢
    rw [hbefore, Option.map_none, declared?, ParameterRenaming.graph, List.find?_map,
      Option.map_eq_none_iff, List.find?_eq_none]
    intro node hnode
    simp only [Function.comp_apply, decide_eq_true_eq]
    show r.fullName node.declaration.fullName ≠ _
    unfold ParameterRenaming.fullName
    split
    · exact fun heq => hafter heq.symm
    · intro heq
      have hparse := TypeExpr.parse_display (ht.wellFormed.renamed h.newNames)
      rw [← heq] at hparse
      exact hself (TypeExpr.renamed_eq_self_of_unused
        ((h.fresh_of_node hnode).fullName _ hparse))

/-- An interface that is declared is not the definition, so its declaration keeps its types. -/
theorem typeIn_of_declared (hapart : r.BaseApart built declaration t) {base : TypeNode}
    (hbase : built.declared? t.display = some base) (s : TypeExpr) :
    r.typeIn base.declaration s = s := by
  have hfound := List.find?_some hbase
  have hname : base.declaration.fullName = t.display := of_decide_eq_true hfound
  exact congrFun (typeIn_of_ne fun heq => hapart.before (hname.symm.trans heq)) s

/-- What an interface extends after the renaming. -/
theorem extensionsOf_graph (h : r.ConsistentIn given built)
    (ht : t.Renamable r.parameters r.rename) (hapart : r.BaseApart built declaration t) :
    (r.graph built).extensionsOf (r.typeIn declaration t) =
      (built.extensionsOf t).map (r.typeIn declaration) := by
  rw [extensionsOf, h.declared?_graph ht hapart, extensionsOf]
  cases hbase : built.declared? t.display with
  | none => rfl
  | some base =>
      show base.declaration.interfaces.map (r.typeIn base.declaration) = _
      refine List.map_congr_left fun s hs => (typeIn_of_declared hapart hbase s).trans ?_
      exact (hapart.kept base hbase s (List.mem_append_left _ (List.mem_cons_of_mem _ hs))).symm

/-- The interfaces of a type after the renaming, if none of them gets in the way. -/
theorem allInterfaces_graph (h : r.ConsistentIn given built) (hnode : built.node? id = some node)
    (hapart : ∀ t ∈ built.allInterfaces id, r.BaseApart built node.declaration t) :
    (r.graph built).allInterfaces id =
      (built.allInterfaces id).map (r.typeIn node.declaration) := by
  have hrenamable : ∀ t ∈ built.allInterfaces id, t.Renamable r.parameters r.rename := fun t ht =>
    h.renamable_of_mentioned (cases_of_mem_allInterfaces hnode ht).1
  have hextends : ∀ t ∈ built.allInterfaces id, _ := fun t ht =>
    h.extensionsOf_graph (hrenamable t ht) (hapart t ht)
  have hrenamedNode : (r.graph built).node? id = some (r.node node) := by
    rw [node?_graph, hnode, Option.map_some]
  have hmentioned : ∀ t ∈ built.allInterfaces id,
      (r.typeIn node.declaration t ∈ (r.graph built).mentioned ↔ t ∈ built.mentioned) := by
    intro t ht
    obtain ⟨hpool, hfrom⟩ := cases_of_mem_allInterfaces hnode ht
    refine iff_of_true ?_ hpool
    rcases hfrom with hdirect | ⟨s, hs, hext⟩
    · exact mem_mentioned_of_mem hrenamedNode (List.mem_map_of_mem hdirect)
    · refine mem_mentioned_of_extends (t := r.typeIn node.declaration s) ?_
      rw [hextends s hs]
      exact List.mem_map_of_mem hext
  have hvisit := preorder_map hextends (fun t ht s hs => mem_allInterfaces_of_extends ht hs)
    (fun s t hs ht => h.typeIn_injective (hrenamable s hs) (hrenamable t ht)) hmentioned
    (fun t ht => mem_allInterfaces_of_mem hnode ht)
  rw [allInterfaces, hrenamedNode]
  refine hvisit.trans ?_
  conv_rhs => rw [allInterfaces, hnode]

end ConsistentIn

end RadioBroker.ParameterRenaming
