import RadioBroker.Proofs.Program.Level

/-!
# The walk through definitions

`Walk model before level pieces after` says that visiting the definitions of `level` one after
another yields `pieces`; `before` are the types that have routines when the visit starts, and
`after` those that have them when it ends. Whatever has an outline has been walked through from
its roots, and no visit is cut off by its bound on depth.
-/

namespace RadioBroker

/-- The scope of a type, unless there is nothing to put into it. -/
def Piece.scopeUnlessEmpty (owner : TypeId) (declaration : Declaration) (pieces : List Piece)
    (initializer : Option Routine) : List Piece :=
  if pieces.isEmpty && initializer.isNone then []
  else [.scope owner declaration pieces initializer]

namespace ServiceModel

/-- Visits of definitions with instances, one after another. -/
inductive Walk (model : ServiceModel) :
    (before level : List TypeId) → (pieces : List Piece) → (after : List TypeId) → Prop
  | nil {before : List TypeId} : Walk model before [] [] before
  /-- A type that is not partial yields its broker only. -/
  | stay {before after level : List TypeId} {id : TypeId} {node : TypeNode}
      {own pieces : List Piece} (hnode : model.graph.node? id = some node)
      (hown : model.ownPieces id node.declaration = .ok own)
      (hpartial : node.declaration.isPartial = false)
      (rest : Walk model before level pieces after) :
      Walk model before (id :: level) (own ++ pieces) after
  /-- A partial type yields its broker and its scope, and has got its routine by then. -/
  | enter {before nestedAfter after level : List TypeId} {id : TypeId} {node : TypeNode}
      {own nestedPieces pieces : List Piece} {initializer : Option Routine}
      (hnode : model.graph.node? id = some node)
      (hown : model.ownPieces id node.declaration = .ok own)
      (hpartial : node.declaration.isPartial = true)
      (nested : Walk model before (model.relations.childrenOf id) nestedPieces nestedAfter)
      (hinitializer : model.nestedRoutine nestedAfter id (model.relations.childrenOf id) =
        .ok initializer)
      (rest : Walk model (if initializer.isSome then id :: nestedAfter else nestedAfter) level
        pieces after) :
      Walk model before (id :: level)
        (own ++ Piece.scopeUnlessEmpty id node.declaration nestedPieces initializer ++ pieces) after

variable {model : ServiceModel} {before middle after level more withRoutine : List TypeId}
  {pieces morePieces : List Piece} {id : TypeId} {depth : Nat}

/-- Two walks make one. -/
theorem Walk.append (hfirst : Walk model before level pieces middle)
    (hsecond : Walk model middle more morePieces after) :
    Walk model before (level ++ more) (pieces ++ morePieces) after := by
  induction hfirst with
  | nil => exact hsecond
  | stay hnode hown hpartial _ ih =>
      rw [List.append_assoc, List.cons_append]
      exact .stay hnode hown hpartial (ih hsecond)
  | enter hnode hown hpartial nested hinitializer _ _ ih =>
      rw [List.append_assoc, List.cons_append]
      exact .enter hnode hown hpartial nested hinitializer (ih hsecond)

/-! ## Outlines have been walked through -/

/-- Visits that succeed one after another make a walk. -/
theorem walk_of_foldlM {visit : List TypeId → TypeId → Except SynthesisError Yield}
    (hvisit : ∀ id ∈ level, ∀ withRoutine yielded, visit withRoutine id = .ok yielded →
      Walk model withRoutine [id] yielded.pieces yielded.withRoutine)
    {start final : Yield}
    (h : level.foldlM (fun yielded id =>
      Yield.extend yielded fun withRoutine => visit withRoutine id) start = .ok final) :
    ∃ added, final.pieces = start.pieces ++ added ∧
      Walk model start.withRoutine level added final.withRoutine := by
  induction level generalizing start with
  | nil =>
      cases h
      exact ⟨[], by simp, .nil⟩
  | cons id level ih =>
      simp only [List.foldlM_cons, bind_eq_ok_iff, Yield.extend] at h
      obtain ⟨_, ⟨yielded, hyielded, hnext⟩, hrest⟩ := h
      cases hnext
      obtain ⟨added, hpieces, hwalk⟩ :=
        ih (fun other hother => hvisit other (List.mem_cons_of_mem _ hother)) hrest
      refine ⟨yielded.pieces ++ added, ?_, ?_⟩
      · rw [hpieces, List.append_assoc]
      · exact (hvisit id List.mem_cons_self _ _ hyielded).append hwalk

/-- A child has one more type around it than its parent, which makes up for a step of depth. -/
theorem Analysed.size_le_of_child (h : model.Analysed) (hacyclic : model.graph.Acyclic)
    {child : TypeId} (hchild : child ∈ model.relations.childrenOf id)
    (hdepth : model.graph.size ≤ depth + 1 + (model.graph.ancestors id).length) :
    model.graph.size ≤ depth + (model.graph.ancestors child).length := by
  have hencloses := (h.relations.mem_childrenOf_iff.mp hchild).1
  rw [TypeGraph.ancestors_of_encloses h.graph hacyclic hencloses, List.length_cons]
  omega

/-- A visit that has depth left for all types around the visited one is a walk. -/
theorem Analysed.walk_of_piecesWithin (h : model.Analysed) (hacyclic : model.graph.Acyclic)
    {yielded : Yield} (hid : model.relations.instancesOf id ≠ [])
    (hdepth : model.graph.size ≤ depth + (model.graph.ancestors id).length)
    (hyielded : model.piecesWithin depth withRoutine id = .ok yielded) :
    Walk model withRoutine [id] yielded.pieces yielded.withRoutine := by
  have hlt := h.lt_of_instances hid
  induction depth generalizing id withRoutine yielded with
  | zero =>
      -- Fewer types than there are enclose a type, so some depth is always left.
      have hless : (model.graph.ancestors id).length < model.graph.size :=
        TypeGraph.length_climb_lt h.graph hacyclic hlt
      omega
  | succ depth ih =>
      obtain ⟨node, hnode⟩ := TypeGraph.exists_node_iff.mpr hlt
      simp only [piecesWithin, hnode, List.isEmpty_iff, hid, if_false, bind_eq_ok_iff] at hyielded
      obtain ⟨own, hown, hyielded⟩ := hyielded
      cases hpartial : node.declaration.isPartial with
      | false =>
          simp only [hpartial, Bool.not_false, if_true] at hyielded
          cases hyielded
          have hwalk : Walk model withRoutine [id] (own ++ []) withRoutine :=
            .stay hnode hown hpartial .nil
          rwa [List.append_nil] at hwalk
      | true =>
          simp only [hpartial, Bool.not_true, Bool.false_eq_true, if_false, bind_eq_ok_iff]
            at hyielded
          obtain ⟨nested, hnested, initializer, hinitializer, hyielded⟩ := hyielded
          cases hyielded
          have hvisit : ∀ child ∈ model.relations.childrenOf id, ∀ withRoutine yielded,
              model.piecesWithin depth withRoutine child = .ok yielded →
              Walk model withRoutine [child] yielded.pieces yielded.withRoutine := by
            intro child hchild withRoutine yielded hyielded
            obtain ⟨hencloses, hinstances⟩ := h.relations.mem_childrenOf_iff.mp hchild
            exact ih hinstances (h.size_le_of_child hacyclic hchild hdepth) hyielded
              hencloses.inner_lt
          obtain ⟨added, hpieces, hwalk⟩ := walk_of_foldlM hvisit hnested
          rw [List.nil_append] at hpieces
          subst hpieces
          have hentered : Walk model withRoutine [id] _ _ :=
            .enter hnode hown hpartial hwalk hinitializer .nil
          rw [List.append_nil] at hentered
          unfold Piece.scopeUnlessEmpty at hentered
          split <;> simpa [*] using hentered

/-- The visits of a namespace's roots are a walk. -/
theorem Analysed.walk_of_namespacePieces (h : model.Analysed) (hacyclic : model.graph.Acyclic)
    {yielded : Yield} (hlevel : ∀ id ∈ level, id ∈ model.rootLevel)
    (hyielded : model.namespacePieces withRoutine level = .ok yielded) :
    Walk model withRoutine level yielded.pieces yielded.withRoutine := by
  have hvisit : ∀ id ∈ level, ∀ withRoutine yielded,
      model.piecesOf withRoutine id = .ok yielded →
      Walk model withRoutine [id] yielded.pieces yielded.withRoutine := by
    intro id hid withRoutine yielded hyielded
    have hinstances := h.level_rootLevel.instances id (hlevel id hid)
    exact h.walk_of_piecesWithin hacyclic hinstances (Nat.le_add_right _ _) hyielded
  obtain ⟨added, hpieces, hwalk⟩ := walk_of_foldlM hvisit hyielded
  rw [List.nil_append] at hpieces
  exact hpieces ▸ hwalk

/-- The visits of the roots of several namespaces are a walk. -/
theorem Analysed.walk_of_unitsOf (h : model.Analysed) (hacyclic : model.graph.Acyclic)
    {namespaces : List (String × List TypeId)} {units : List (String × List Piece)}
    (hlevel : ∀ id ∈ namespaces.flatMap Prod.snd, id ∈ model.rootLevel)
    (hunits : model.unitsOf withRoutine namespaces = .ok (units, after)) :
    Walk model withRoutine (namespaces.flatMap Prod.snd) (units.flatMap Prod.snd) after := by
  induction namespaces generalizing withRoutine units with
  | nil =>
      cases hunits
      exact .nil
  | cons entry namespaces ih =>
      simp only [unitsOf, bind_eq_ok_iff] at hunits
      obtain ⟨yielded, hyielded, ⟨later, final⟩, hlater, hfinal⟩ := hunits
      cases hfinal
      rw [List.flatMap_cons] at hlevel ⊢
      have hfirst := h.walk_of_namespacePieces hacyclic
        (fun id hid => hlevel id (List.mem_append_left _ hid)) hyielded
      have hwalk := hfirst.append
        (ih (fun id hid => hlevel id (List.mem_append_right _ hid)) hlater)
      -- A namespace without pieces yields no unit.
      split
      · rename_i hempty
        rw [List.isEmpty_iff] at hempty
        rwa [hempty, List.nil_append] at hwalk
      · rwa [List.flatMap_cons]

/-- An outline has the units of the namespaces and the routine of the roots. -/
theorem cases_of_outline {outline : Outline} (h : model.outline = .ok outline) :
    ∃ after, model.unitsOf [] model.namespaces = .ok (outline.units, after) ∧
      model.levelRoutine after model.rootLevel = .ok outline.root := by
  simp only [ServiceModel.outline, bind_eq_ok_iff] at h
  obtain ⟨⟨units, after⟩, hunits, root, hroot, hresult⟩ := h
  cases hresult
  exact ⟨after, hunits, hroot⟩

/-- An outline is a walk through the roots, followed by the root routine. -/
theorem Analysed.walk_of_outline (h : model.Analysed) (hacyclic : model.graph.Acyclic)
    {outline : Outline} (houtline : model.outline = .ok outline) :
    ∃ after, Walk model [] model.rootLevel outline.pieces after ∧
      model.levelRoutine after model.rootLevel = .ok outline.root := by
  obtain ⟨after, hunits, hroot⟩ := cases_of_outline houtline
  exact ⟨after, h.walk_of_unitsOf hacyclic (fun _ => id) hunits, hroot⟩

/-- A program that was not cancelled is that of an outline. -/
theorem synthesize_eq (model : ServiceModel) (hook : ModuleHook) :
    model.synthesize hook false = model.outline.map (·.program hook) := by
  rw [synthesize, if_neg (by simp)]
  cases model.outline <;> rfl

/-- A program is that of the outline. A model is cancelled only if there is something to
generate. -/
theorem synthesize_eq_ok_iff {hook : ModuleHook} {cancelled : Bool} {program : Program} :
    model.synthesize hook cancelled = .ok program ↔
      (cancelled = true → model.namespaces = []) ∧
        ∃ outline, model.outline = .ok outline ∧ program = outline.program hook := by
  have hcondition : (cancelled && !model.namespaces.isEmpty) = true ↔
      ¬ (cancelled = true → model.namespaces = []) := by
    simp
  unfold synthesize
  split
  · rename_i hstopped
    simp [hcondition.mp hstopped]
  · rename_i hgoes
    rw [hcondition, not_not] at hgoes
    rw [bind_eq_ok_iff, and_iff_right hgoes]
    simp only [Except.ok.injEq, eq_comm]

/-- A program has an outline. -/
theorem exists_outline_of_synthesize {hook : ModuleHook} {cancelled : Bool} {program : Program}
    (h : model.synthesize hook cancelled = .ok program) :
    ∃ outline, model.outline = .ok outline ∧ program = outline.program hook :=
  (synthesize_eq_ok_iff.mp h).2

end ServiceModel

end RadioBroker
