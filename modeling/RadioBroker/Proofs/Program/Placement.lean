import RadioBroker.Proofs.Program.Reach
import RadioBroker.Proofs.Program.Walk

/-!
# Where pieces stand

A piece stands in the scopes around it. In an outline these are one more part of each type that
encloses the owner of the piece, and nothing else; the owner is reached through partial types, and
no type has two broker classes or two scopes.
-/

namespace RadioBroker

open Relation

namespace Piece

/-- The type that a piece is generated for. -/
def owner : Piece → TypeId
  | broker owner _ => owner
  | scope owner _ _ _ => owner

/-- What tells the pieces of an outline apart: the type, and whether the piece is its scope. -/
def key : Piece → TypeId × Bool
  | broker owner _ => (owner, false)
  | scope owner _ _ _ => (owner, true)

/-- The broker class that a piece is, if it is one, and its service. -/
def broker? : Piece → Option (TypeId × BrokerClass)
  | broker owner brokerClass => some (owner, brokerClass)
  | scope _ _ _ _ => none

/-- The routine that a scope has, if there is one, and its type. -/
def routine? : Piece → Option (TypeId × Routine)
  | broker _ _ => none
  | scope owner _ _ initializer => initializer.map fun routine => (owner, routine)

/-- A piece in its place. -/
structure Placement where
  /-- The owners of the scopes around the piece, innermost first. -/
  around : List TypeId
  piece : Piece

mutual

/-- A piece and what it holds, each in its place, when the owners of the scopes around the piece are
`around`. -/
def placed (around : List TypeId) : Piece → List Placement
  | broker owner brokerClass => [⟨around, broker owner brokerClass⟩]
  | scope owner declaration pieces initializer =>
    ⟨around, scope owner declaration pieces initializer⟩ :: placedIn (owner :: around) pieces

/-- Several pieces and what they hold, each in its place. -/
def placedIn (around : List TypeId) : List Piece → List Placement
  | [] => []
  | piece :: pieces => placed around piece ++ placedIn around pieces

end

variable {around : List TypeId}

theorem placedIn_append (pieces more : List Piece) :
    placedIn around (pieces ++ more) = placedIn around pieces ++ placedIn around more := by
  induction pieces with
  | nil => rfl
  | cons piece pieces ih => simp [placedIn, ih]

/-- A scope that holds something stands in front of what it holds, which stands in it. -/
theorem placedIn_scopeUnlessEmpty (owner : TypeId) (declaration : Declaration)
    (pieces : List Piece) (initializer : Option Routine) :
    placedIn around (scopeUnlessEmpty owner declaration pieces initializer) =
      (if pieces.isEmpty && initializer.isNone then []
        else [⟨around, .scope owner declaration pieces initializer⟩]) ++
        placedIn (owner :: around) pieces := by
  unfold scopeUnlessEmpty
  split
  · rename_i hempty
    simp only [Bool.and_eq_true, List.isEmpty_iff] at hempty
    simp [hempty, placedIn]
  · simp [placedIn, placed]

mutual

/-- The broker classes in a piece, wherever they stand. -/
theorem filterMap_broker?_placed (around : List TypeId) : ∀ piece : Piece,
    (placed around piece).filterMap (·.piece.broker?) = brokers piece
  | broker _ _ => rfl
  | scope owner declaration pieces initializer => by
      rw [placed, List.filterMap_cons_none rfl, filterMap_broker?_placedIn, brokers]

/-- The broker classes in pieces, wherever they stand. -/
theorem filterMap_broker?_placedIn (around : List TypeId) : ∀ pieces : List Piece,
    (placedIn around pieces).filterMap (·.piece.broker?) = brokersIn pieces
  | [] => rfl
  | piece :: pieces => by
      rw [placedIn, List.filterMap_append, filterMap_broker?_placed, filterMap_broker?_placedIn,
        brokersIn]

end

mutual

/-- The routines in a piece, wherever they stand. -/
theorem filterMap_routine?_placed (around : List TypeId) : ∀ piece : Piece,
    (placed around piece).filterMap (·.piece.routine?) = routines piece
  | broker _ _ => rfl
  | scope owner declaration pieces initializer => by
      rw [placed, routines, ← filterMap_routine?_placedIn (owner :: around)]
      cases initializer <;> rfl

/-- The routines in pieces, wherever they stand. -/
theorem filterMap_routine?_placedIn (around : List TypeId) : ∀ pieces : List Piece,
    (placedIn around pieces).filterMap (·.piece.routine?) = routinesIn pieces
  | [] => rfl
  | piece :: pieces => by
      rw [placedIn, List.filterMap_append, filterMap_routine?_placed, filterMap_routine?_placedIn,
        routinesIn]

end

/-- Only a broker class is one. -/
theorem eq_broker_of_broker? {piece : Piece} {entry : TypeId × BrokerClass}
    (h : piece.broker? = some entry) : piece = .broker entry.1 entry.2 := by
  cases piece with
  | broker _ _ =>
      cases h
      rfl
  | scope _ _ _ _ => cases h

/-- Only a scope has a routine. -/
theorem eq_scope_of_routine? {piece : Piece} {entry : TypeId × Routine}
    (h : piece.routine? = some entry) :
    ∃ declaration pieces, piece = .scope entry.1 declaration pieces (some entry.2) := by
  cases piece with
  | broker _ _ => cases h
  | scope _ declaration pieces initializer =>
      obtain ⟨routine, rfl, rfl⟩ := Option.map_eq_some_iff.mp h
      exact ⟨declaration, pieces, rfl⟩

/-- Where keys tell all pieces apart, those of one kind have different owners. -/
theorem nodup_owners_of_nodup_keys {α : Type} (select : Piece → Option (TypeId × α)) (kind : Bool)
    (hselect : ∀ piece entry, select piece = some entry → piece.key = (entry.1, kind))
    {placements : List Placement} (h : (placements.map (·.piece.key)).Nodup) :
    ((placements.filterMap fun placement => select placement.piece).map Prod.fst).Nodup := by
  refine List.pairwise_map.mpr ((List.pairwise_map.mp h).filterMap _ ?_)
  intro first second hne entry hentry other hother heq
  refine hne ?_
  rw [hselect _ _ hentry, hselect _ _ hother, heq]

end Piece

/-- All pieces of an outline, each in its place. -/
def Outline.placed (outline : Outline) : List Piece.Placement := Piece.placedIn [] outline.pieces

namespace Outline

variable {outline : Outline}

/-- The broker classes of an outline are its pieces that are one. -/
theorem brokers_eq (outline : Outline) :
    outline.brokers = outline.placed.filterMap (·.piece.broker?) :=
  (Piece.filterMap_broker?_placedIn [] outline.pieces).symm

/-- A type has a routine in an outline if its scope has it. -/
theorem mem_routines_iff {entry : TypeId × Routine} : entry ∈ outline.routines ↔
    ∃ placement ∈ outline.placed, placement.piece.routine? = some entry := by
  rw [routines, ← Piece.filterMap_routine?_placedIn [], List.mem_filterMap, placed]

end Outline

namespace ServiceModel

variable {model : ServiceModel} {before after nestedAfter level around : List TypeId}
  {parent : Option TypeId} {pieces nestedPieces own : List Piece} {id other : TypeId}
  {declaration : Declaration} {initializer : Option Routine} {placement : Piece.Placement}

/-- What a type yields besides its scope is a broker. -/
theorem mem_placedIn_ownPieces (hown : model.ownPieces id declaration = .ok own)
    (hmem : placement ∈ Piece.placedIn around own) :
    ∃ broker, placement = ⟨around, .broker id broker⟩ := by
  unfold ownPieces at hown
  split at hown
  · obtain ⟨broker, _, hresult⟩ := bind_eq_ok_iff.mp hown
    cases hresult
    exact ⟨broker, List.mem_singleton.mp hmem⟩
  · cases hown
    cases hmem

/-- Where a type has been entered there are its broker, its scope, what it holds and what
follows. -/
theorem mem_placedIn_entered :
    placement ∈ Piece.placedIn around
        (own ++ Piece.scopeUnlessEmpty id declaration nestedPieces initializer ++ pieces) ↔
      placement ∈ Piece.placedIn around own ∨
      (¬ (nestedPieces = [] ∧ initializer = none) ∧
        placement = ⟨around, .scope id declaration nestedPieces initializer⟩) ∨
      placement ∈ Piece.placedIn (id :: around) nestedPieces ∨
      placement ∈ Piece.placedIn around pieces := by
  rw [Piece.placedIn_append, Piece.placedIn_append, Piece.placedIn_scopeUnlessEmpty]
  by_cases hempty : nestedPieces = [] ∧ initializer = none
  · simp [hempty, Piece.placedIn]
  · have hcondition : (nestedPieces.isEmpty && initializer.isNone) = false := by
      simpa [← Bool.not_eq_true] using hempty
    simp [hcondition, hempty]

/-! ## The ways to pieces -/

/-- The owner of a piece is reached from the level of the walk through partial types. -/
theorem Walk.exists_way_of_mem_placedIn (hwalk : Walk model before level pieces after)
    (hmem : placement ∈ Piece.placedIn around pieces) :
    ∃ top ∈ level, ReflTransGen (model.Passes model.graph.IsPartial) top placement.piece.owner := by
  induction hwalk generalizing around with
  | nil => cases hmem
  | stay _ hown _ _ ih =>
      rw [Piece.placedIn_append, List.mem_append] at hmem
      rcases hmem with hself | hlater
      · obtain ⟨broker, rfl⟩ := mem_placedIn_ownPieces hown hself
        exact ⟨_, List.mem_cons_self, .refl⟩
      · obtain ⟨top, htop, hway⟩ := ih hlater
        exact ⟨top, List.mem_cons_of_mem _ htop, hway⟩
  | @enter before nestedAfter after level id node own nestedPieces pieces initializer
      hnode hown hpartial _ _ _ hnested hrest =>
      rcases mem_placedIn_entered.mp hmem with hself | ⟨_, rfl⟩ | hbelow | hlater
      · obtain ⟨broker, rfl⟩ := mem_placedIn_ownPieces hown hself
        exact ⟨_, List.mem_cons_self, .refl⟩
      · exact ⟨_, List.mem_cons_self, .refl⟩
      · obtain ⟨child, hchild, hway⟩ := hnested hbelow
        exact ⟨id, List.mem_cons_self, .head ⟨⟨node, hnode, hpartial⟩, hchild⟩ hway⟩
      · obtain ⟨top, htop, hway⟩ := hrest hlater
        exact ⟨top, List.mem_cons_of_mem _ htop, hway⟩

/-- The owner of a piece stands at the level of the walk or below it. -/
theorem Walk.exists_top_of_mem_placedIn (h : model.Analysed)
    (hwalk : Walk model before level pieces after)
    (hmem : placement ∈ Piece.placedIn around pieces) :
    ∃ top ∈ level, ReflTransGen model.graph.Encloses top placement.piece.owner := by
  obtain ⟨top, htop, hway⟩ := hwalk.exists_way_of_mem_placedIn hmem
  exact ⟨top, htop, ReflTransGen.mono (fun _ _ hstep => h.encloses_of_passes hstep) _ _ hway⟩

/-- The owner of a piece in the scope of a type is enclosed by that. -/
theorem Walk.transGen_of_mem_placedIn (h : model.Analysed)
    (nested : Walk model before (model.relations.childrenOf id) nestedPieces nestedAfter)
    (hmem : placement ∈ Piece.placedIn around nestedPieces) :
    TransGen model.graph.Encloses id placement.piece.owner := by
  obtain ⟨child, hchild, hpath⟩ := nested.exists_top_of_mem_placedIn h hmem
  exact .head' (h.relations.mem_childrenOf_iff.mp hchild).1 hpath

/-! ## One broker and one scope for a type -/

/-- Nothing at or below the first definition of a level is at or below another one. -/
theorem Level.not_below_tail (hacyclic : model.graph.Acyclic)
    (hlevel : model.Level parent (id :: level))
    (hother : ReflTransGen model.graph.Encloses id other) :
    ∀ top ∈ level, ¬ ReflTransGen model.graph.Encloses top other := by
  intro top htop hpath
  have hparent : model.graph.parent? id = model.graph.parent? top :=
    (hlevel.parent id List.mem_cons_self).trans
      (hlevel.parent top (List.mem_cons_of_mem _ htop)).symm
  have heq := hacyclic.eq_of_common hparent hother hpath
  exact (List.nodup_cons.mp hlevel.nodup).1 (heq ▸ htop)

/-- A type yields at most one broker. -/
theorem keys_ownPieces (hown : model.ownPieces id declaration = .ok own) :
    ((Piece.placedIn around own).map (·.piece.key)).Sublist [(id, false)] := by
  unfold ownPieces at hown
  split at hown
  · obtain ⟨broker, _, hresult⟩ := bind_eq_ok_iff.mp hown
    cases hresult
    exact List.Sublist.refl _
  · cases hown
    exact List.nil_sublist _

/-- A type that is entered yields at most one broker and one scope, besides what that holds. -/
theorem exists_placedIn_entered (hown : model.ownPieces id declaration = .ok own) :
    ∃ first, Piece.placedIn around
        (own ++ Piece.scopeUnlessEmpty id declaration nestedPieces initializer ++ pieces) =
      first ++ Piece.placedIn (id :: around) nestedPieces ++ Piece.placedIn around pieces ∧
      (first.map (·.piece.key)).Sublist [(id, false), (id, true)] := by
  rw [Piece.placedIn_append, Piece.placedIn_append, Piece.placedIn_scopeUnlessEmpty,
    ← List.append_assoc]
  refine ⟨_, rfl, ?_⟩
  rw [List.map_append]
  show List.Sublist _ ([(id, false)] ++ [(id, true)])
  refine List.Sublist.append (keys_ownPieces hown) ?_
  split
  · exact List.nil_sublist _
  · exact List.Sublist.refl _

/-- The owner in a key is that of the piece. -/
theorem exists_of_mem_keys {placements : List Piece.Placement} {key : TypeId × Bool}
    (h : key ∈ placements.map (·.piece.key)) :
    ∃ placement ∈ placements, placement.piece.owner = key.1 := by
  obtain ⟨placement, hmem, rfl⟩ := List.mem_map.mp h
  refine ⟨placement, hmem, ?_⟩
  cases placement.piece <;> rfl

/-- What is at or below the first definition of a level gets no piece behind it. -/
theorem Walk.notMem_keys_tail (h : model.Analysed) (hacyclic : model.graph.Acyclic)
    (rest : Walk model before level pieces after) (hlevel : model.Level parent (id :: level))
    {key : TypeId × Bool} (hkey : ReflTransGen model.graph.Encloses id key.1) :
    key ∉ (Piece.placedIn around pieces).map (·.piece.key) := by
  intro hmem
  obtain ⟨placement, hplacement, howner⟩ := exists_of_mem_keys hmem
  obtain ⟨top, htop, hpath⟩ := rest.exists_top_of_mem_placedIn h hplacement
  exact hlevel.not_below_tail hacyclic hkey top htop (howner ▸ hpath)

/-- No type gets two broker classes or two scopes. -/
theorem Walk.nodup_keys (h : model.Analysed) (hacyclic : model.graph.Acyclic)
    (hwalk : Walk model before level pieces after) (hlevel : model.Level parent level) :
    ((Piece.placedIn around pieces).map (·.piece.key)).Nodup := by
  induction hwalk generalizing parent around with
  | nil => exact List.nodup_nil
  | @stay before after level id node own pieces _ hown _ rest ih =>
      have hself := @keys_ownPieces model around own id _ hown
      rw [Piece.placedIn_append, List.map_append]
      refine List.Nodup.append (hself.nodup (by simp)) (ih hlevel.tail) ?_
      intro key hkey
      cases List.mem_singleton.mp (hself.subset hkey)
      exact rest.notMem_keys_tail h hacyclic hlevel .refl
  | @enter before nestedAfter after level id node own nestedPieces pieces initializer
      _ hown _ nested _ rest hnested hrest =>
      obtain ⟨first, hplaced, hself⟩ :=
        @exists_placedIn_entered model around pieces nestedPieces own
        id node.declaration initializer hown
      have howner : ∀ key ∈ first.map (·.piece.key), key.1 = id := by
        intro key hkey
        have hcases := hself.subset hkey
        simp only [List.mem_cons, List.not_mem_nil, or_false] at hcases
        rcases hcases with rfl | rfl <;> rfl
      have hbelow : ∀ key ∈ (Piece.placedIn (id :: around) nestedPieces).map (·.piece.key),
          TransGen model.graph.Encloses id key.1 := by
        intro key hkey
        obtain ⟨placement, hmem, hkeyOwner⟩ := exists_of_mem_keys hkey
        exact hkeyOwner ▸ nested.transGen_of_mem_placedIn h hmem
      rw [hplaced, List.map_append, List.map_append]
      refine List.Nodup.append (List.Nodup.append (hself.nodup (by simp))
        (hnested (h.level_childrenOf id)) ?_) (hrest hlevel.tail) ?_
      · intro key hkey hinner
        -- The type would enclose itself.
        exact hacyclic id (howner key hkey ▸ hbelow key hinner)
      · intro key hkey
        rcases List.mem_append.mp hkey with hfirst | hinner
        · exact rest.notMem_keys_tail h hacyclic hlevel (howner key hfirst ▸ .refl)
        · exact rest.notMem_keys_tail h hacyclic hlevel (hbelow key hinner).to_reflTransGen

/-! ## Well placed pieces -/

/-- A piece stands where its owner is declared. -/
structure WellPlaced (model : ServiceModel) (placement : Piece.Placement) : Prop where
  /-- The scopes around it are those of the types around its owner. -/
  around : placement.around = model.graph.ancestors placement.piece.owner
  /-- A scope is one more part of its type, which is partial. A generic definition has no
  routine. -/
  scope : ∀ owner declaration pieces initializer,
    placement.piece = .scope owner declaration pieces initializer →
    ∃ node, model.graph.node? owner = some node ∧ node.declaration = declaration ∧
      declaration.isPartial = true ∧
      (initializer ≠ none → (model.genericsOf owner).isOpen = false)

/-- A broker is well placed if the types around its owner are those of the scopes. -/
theorem wellPlaced_broker {broker : BrokerClass} (haround : model.graph.ancestors id = around) :
    model.WellPlaced ⟨around, .broker id broker⟩ where
  around := haround.symm
  scope _ _ _ _ hscope := by cases hscope

/-- The pieces of a walk are well placed in scopes of the types that enclose its level. -/
theorem Walk.wellPlaced (h : model.Analysed) (hacyclic : model.graph.Acyclic)
    (hwalk : Walk model before level pieces after)
    (haround : ∀ id ∈ level, model.graph.ancestors id = around)
    (hmem : placement ∈ Piece.placedIn around pieces) : model.WellPlaced placement := by
  induction hwalk generalizing around with
  | nil => cases hmem
  | stay _ hown _ _ ih =>
      rw [Piece.placedIn_append, List.mem_append] at hmem
      rcases hmem with hself | hlater
      · obtain ⟨broker, rfl⟩ := mem_placedIn_ownPieces hown hself
        exact wellPlaced_broker (haround _ List.mem_cons_self)
      · exact ih (fun other hother => haround other (List.mem_cons_of_mem _ hother)) hlater
  | @enter before nestedAfter after level id node own nestedPieces pieces initializer
      hnode hown hpartial _ hinitializer _ hnested hrest =>
      rcases mem_placedIn_entered.mp hmem with hself | ⟨_, rfl⟩ | hbelow | hlater
      · obtain ⟨broker, rfl⟩ := mem_placedIn_ownPieces hown hself
        exact wellPlaced_broker (haround _ List.mem_cons_self)
      · refine ⟨(haround id List.mem_cons_self).symm, ?_⟩
        intro owner declaration pieces routine hscope
        cases hscope
        refine ⟨node, hnode, rfl, hpartial, ?_⟩
        intro hroutine
        rcases nestedRoutine_cases hinitializer with ⟨_, hnone⟩ | ⟨hopen, _⟩
        · exact absurd hnone hroutine
        · exact hopen
      · refine hnested ?_ hbelow
        intro child hchild
        have hencloses := (h.relations.mem_childrenOf_iff.mp hchild).1
        rw [TypeGraph.ancestors_of_encloses h.graph hacyclic hencloses,
          haround id List.mem_cons_self]
      · exact hrest (fun other hother => haround other (List.mem_cons_of_mem _ hother)) hlater

/-! ## The pieces of an outline -/

section

variable {outline : Outline} (h : model.Analysed) (hacyclic : model.graph.Acyclic)
  (houtline : model.outline = .ok outline)

include h hacyclic houtline

/-- The pieces of an outline are well placed. -/
theorem Analysed.wellPlaced (hmem : placement ∈ outline.placed) : model.WellPlaced placement := by
  obtain ⟨after, hwalk, _⟩ := h.walk_of_outline hacyclic houtline
  refine hwalk.wellPlaced h hacyclic ?_ hmem
  intro root hroot
  exact TypeGraph.ancestors_of_root (h.mem_rootLevel_iff.mp hroot).1

/-- The owners of the pieces of an outline are reached through partial types. -/
theorem Analysed.reached_of_mem_placed (hmem : placement ∈ outline.placed) :
    model.Reached model.graph.IsPartial placement.piece.owner := by
  obtain ⟨after, hwalk, _⟩ := h.walk_of_outline hacyclic houtline
  exact hwalk.exists_way_of_mem_placedIn hmem

/-- No type has two broker classes or two scopes in an outline. -/
theorem Analysed.nodup_keys : (outline.placed.map (·.piece.key)).Nodup := by
  obtain ⟨after, hwalk, _⟩ := h.walk_of_outline hacyclic houtline
  exact hwalk.nodup_keys h hacyclic h.level_rootLevel

end

end ServiceModel

end RadioBroker
