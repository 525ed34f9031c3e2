import RadioBroker.Proofs.Program.Reordering
import RadioBroker.Proofs.ServiceModel.Composition

/-!
# Programs of independent declarations

What is generated for a model of which the types stand in another one is generated for them there as
well: the visits of its definitions yield the same items in their places, and no other visit
changes which of its types have routines. Independent declarations have therefore one program
together that is the program of the first list followed by that of the second one.
-/

namespace RadioBroker.ServiceModel

open TypeGraph

variable {part whole left right : ServiceModel} {place otherPlace : TypeId ↪o TypeId}
  {before withRoutine mirror level : List TypeId} {declaration : Declaration}

/-! ## Levels in their places -/

/-- The types with routines in a whole, compared with those in a part: those of the part have
routines in both or in neither, and of the others those that had them before. -/
structure Traced (part : ServiceModel) (place : TypeId ↪o TypeId)
    (before withRoutine mirror : List TypeId) : Prop where
  placed : ∀ id < part.graph.size, (place id ∈ mirror ↔ id ∈ withRoutine)
  elsewhere : ∀ id ∉ Set.range place, (id ∈ mirror ↔ id ∈ before)

/-- A type of the part gets a routine in both. -/
theorem Traced.cons (h : Traced part place before withRoutine mirror) (id : TypeId) :
    Traced part place before (id :: withRoutine) (place id :: mirror) where
  placed other hother := by
    rw [List.mem_cons, List.mem_cons, place.injective.eq_iff, h.placed other hother]
  elsewhere other hother := by
    rw [List.mem_cons, h.elsewhere other hother]
    exact or_iff_right fun heq => hother ⟨id, heq.symm⟩

namespace Part

/-- A level registers the same services in its place. -/
theorem registeredAt_place (h : Part part whole place) (level : List TypeId) :
    whole.registeredAt (level.map place) = (part.registeredAt level).map place := by
  have hinstances : (level.map place).flatMap whole.relations.instancesOf =
      (level.flatMap part.relations.instancesOf).map place := by
    simp only [List.flatMap_map, List.map_flatMap, h.relations.instances]
  rw [registeredAt, registeredAt, hinstances, List.filter_map]
  congr 1
  refine List.filter_congr fun id hid => ?_
  obtain ⟨_, _, hinstance⟩ := List.mem_flatMap.mp hid
  have htwins := h.embeds.twins (h.analysed.relations.mem_instancesOf_iff.mp hinstance).1.1
  rw [Function.comp_apply, h.included.isService_eq htwins, genericsOf_eq htwins]

/-- A level has the same routine in its place. -/
theorem levelRoutine_place (h : Part part whole place)
    (htraced : ∀ id < part.graph.size, (place id ∈ mirror ↔ id ∈ withRoutine))
    (hlevel : ∀ id ∈ level, id < part.graph.size) :
    whole.levelRoutine mirror (level.map place) = part.levelRoutine withRoutine level := by
  have hregistrations : (whole.registeredAt (level.map place)).mapM whole.registration =
      (part.registeredAt level).mapM part.registration := by
    rw [h.registeredAt_place, List.mapM_map]
    refine mapM_congr_of_mem fun id hid => ?_
    have hservice := (h.analysed.mem_registeredAt_iff.mp hid).2.1
    exact (h.included.registration_eq (h.embeds.twins (h.analysed.lt_of_isService hservice))).symm
  have hcalls : ((level.map place).filter (· ∈ mirror)).map whole.graph.fullName =
      (level.filter (· ∈ withRoutine)).map part.graph.fullName := by
    have hfilter : level.filter ((fun id => decide (id ∈ mirror)) ∘ place) =
        level.filter (· ∈ withRoutine) :=
      List.filter_congr fun id hid => decide_eq_decide.mpr (htraced id (hlevel id hid))
    rw [List.filter_map, List.map_map, hfilter]
    refine List.map_congr_left fun id hid => ?_
    exact (h.embeds.twins (hlevel id (List.mem_of_mem_filter hid))).fullName_eq.symm
  rw [levelRoutine, levelRoutine, hregistrations, hcalls]

/-- The level below a type has the same routine in its place. -/
theorem nestedRoutine_place (h : Part part whole place)
    (htraced : ∀ id < part.graph.size, (place id ∈ mirror ↔ id ∈ withRoutine)) {id : TypeId}
    (hid : id < part.graph.size) (hlevel : ∀ id ∈ level, id < part.graph.size) :
    whole.nestedRoutine mirror (place id) (level.map place) =
      part.nestedRoutine withRoutine id level := by
  rw [nestedRoutine, nestedRoutine, genericsOf_eq (h.embeds.twins hid), List.isEmpty_map,
    h.levelRoutine_place htraced hlevel]

/-- A definition has the same broker in its place. -/
theorem exists_ownPieces (h : Part part whole place) {id : TypeId} (hid : id < part.graph.size)
    {own : List Piece} (hown : part.ownPieces id declaration = .ok own) :
    ∃ placed, whole.ownPieces (place id) declaration = .ok placed ∧
      Piece.items placed = Piece.items own := by
  have htwins := h.embeds.twins hid
  unfold ownPieces at hown ⊢
  rw [← h.included.isService_eq htwins, ← h.included.brokerClass_eq htwins]
  split at hown
  · obtain ⟨broker, hbroker, hpieces⟩ := bind_eq_ok_iff.mp hown
    cases hpieces
    rename_i hservice
    rw [if_pos hservice, hbroker]
    exact ⟨_, rfl, rfl⟩
  · rename_i hservice
    cases hown
    rw [if_neg hservice]
    exact ⟨_, rfl, rfl⟩

end Part

/-! ## Visits in their places -/

/-- A namespace with its pieces, without the types that they are generated for. -/
def unitOf (unit : String × List Piece) : NamespaceUnit :=
  ⟨unit.1, Piece.items unit.2⟩

/-- What is yielded in a whole where something is yielded in a part: the same items, and routines
for the same types of the part and for no others. -/
structure Yield.Mirrors (part : ServiceModel) (place : TypeId ↪o TypeId) (before : List TypeId)
    (yielded mirrored : Yield) : Prop where
  items : Piece.items mirrored.pieces = Piece.items yielded.pieces
  traced : Traced part place before yielded.withRoutine mirrored.withRoutine

namespace Yield.Mirrors

variable {yielded mirrored more moreMirrored : Yield}

/-- Nothing is yielded in the whole exactly if nothing is yielded in the part. -/
theorem isEmpty_eq (h : Mirrors part place before yielded mirrored) :
    mirrored.pieces.isEmpty = yielded.pieces.isEmpty := by
  have hitems := h.items
  rw [Piece.items_eq_map, Piece.items_eq_map] at hitems
  rw [← List.isEmpty_map (f := Piece.item), hitems, List.isEmpty_map]

/-- What two visits yield is mirrored if what each of them yields is. -/
theorem append (h : Mirrors part place before yielded mirrored)
    (hmore : Mirrors part place before more moreMirrored) :
    Mirrors part place before ⟨yielded.pieces ++ more.pieces, more.withRoutine⟩
      ⟨mirrored.pieces ++ moreMirrored.pieces, moreMirrored.withRoutine⟩ where
  items := by
    have hitems := h.items
    have hmoreItems := hmore.items
    rw [Piece.items_eq_map, Piece.items_eq_map] at hitems hmoreItems ⊢
    rw [List.map_append, List.map_append, hitems, hmoreItems]
  traced := hmore.traced

/-- What a partial type yields is mirrored if its broker is, and what its children yield. -/
theorem enter (h : Mirrors part place before yielded mirrored) {own placedOwn : List Piece}
    (hown : Piece.items placedOwn = Piece.items own) (id : TypeId) (declaration : Declaration)
    (initializer : Option Routine) :
    Mirrors part place before
      ⟨if yielded.pieces.isEmpty && initializer.isNone then own
        else own ++ [.scope id declaration yielded.pieces initializer],
        if initializer.isSome then id :: yielded.withRoutine else yielded.withRoutine⟩
      ⟨if mirrored.pieces.isEmpty && initializer.isNone then placedOwn
        else placedOwn ++ [.scope (place id) declaration mirrored.pieces initializer],
        if initializer.isSome then place id :: mirrored.withRoutine else mirrored.withRoutine⟩ where
  items := by
    have hitems := h.items
    dsimp only
    rw [h.isEmpty_eq]
    split
    · exact hown
    · rw [Piece.items_eq_map, Piece.items_eq_map] at hown ⊢
      rw [List.map_append, List.map_append, hown]
      simp only [List.map_cons, List.map_nil, Piece.item, hitems]
  traced := by
    dsimp only
    split
    · exact h.traced.cons id
    · exact h.traced

/-- Visits that are mirrored one by one are mirrored together. -/
theorem foldlM (h : Mirrors part place before yielded mirrored)
    {visit placedVisit : List TypeId → TypeId → Except SynthesisError Yield}
    (hvisit : ∀ id ∈ level, ∀ withRoutine mirror yielded,
      Traced part place before withRoutine mirror → visit withRoutine id = .ok yielded →
      ∃ mirrored, placedVisit mirror (place id) = .ok mirrored ∧
        Mirrors part place before yielded mirrored)
    {final : Yield}
    (hfinal : level.foldlM (fun yielded id =>
      Yield.extend yielded fun withRoutine => visit withRoutine id) yielded = .ok final) :
    ∃ mirroredFinal, (level.map place).foldlM (fun yielded id =>
        Yield.extend yielded fun withRoutine => placedVisit withRoutine id) mirrored =
          .ok mirroredFinal ∧ Mirrors part place before final mirroredFinal := by
  induction level generalizing yielded mirrored with
  | nil =>
      cases hfinal
      exact ⟨mirrored, rfl, h⟩
  | cons id level ih =>
      obtain ⟨hid, hlevel⟩ := List.forall_mem_cons.mp hvisit
      simp only [List.foldlM_cons, bind_eq_ok_iff, Yield.extend] at hfinal
      obtain ⟨_, ⟨more, hmore, hnext⟩, hrest⟩ := hfinal
      cases hnext
      obtain ⟨moreMirrored, hplaced, hmirrors⟩ := hid _ _ _ h.traced hmore
      obtain ⟨mirroredFinal, hfold, hresult⟩ := ih (h.append hmirrors) hlevel hrest
      refine ⟨mirroredFinal, ?_, hresult⟩
      rw [List.map_cons, List.foldlM_cons, Yield.extend, hplaced]
      exact hfold

end Yield.Mirrors

namespace Part

/-- What a definition yields it yields in its place, where no less depth is left for it. -/
theorem exists_piecesWithin (h : Part part whole place) (hacyclic : part.graph.Acyclic)
    {depth extra : Nat} {id : TypeId} {yielded : Yield} (hid : part.relations.instancesOf id ≠ [])
    (hdepth : part.graph.size ≤ depth + (part.graph.ancestors id).length)
    (htraced : Traced part place before withRoutine mirror)
    (hyielded : part.piecesWithin depth withRoutine id = .ok yielded) :
    ∃ mirrored, whole.piecesWithin (depth + extra) mirror (place id) = .ok mirrored ∧
      Yield.Mirrors part place before yielded mirrored := by
  have hlt := h.analysed.lt_of_instances hid
  induction depth generalizing id withRoutine mirror yielded with
  | zero =>
      -- Fewer types than there are enclose a type, so some depth is always left.
      have hless : (part.graph.ancestors id).length < part.graph.size :=
        length_climb_lt h.analysed.graph hacyclic hlt
      omega
  | succ depth ih =>
      obtain ⟨node, placedNode, hnode, hplacedNode, hsame⟩ := h.embeds.twins hlt
      have hinstances : whole.relations.instancesOf (place id) ≠ [] := by
        rwa [h.relations.instances, Ne, List.map_eq_nil_iff]
      have hchildren := h.relations.children id
      have hlevel : ∀ child ∈ part.relations.childrenOf id, child < part.graph.size :=
        fun child hchild => (h.analysed.relations.mem_childrenOf_iff.mp hchild).1.inner_lt
      rw [Nat.succ_add]
      simp only [piecesWithin, hnode, List.isEmpty_iff, hid, if_false, bind_eq_ok_iff] at hyielded
      simp only [piecesWithin, hplacedNode, List.isEmpty_iff, hinstances, if_false, ← hsame]
      obtain ⟨own, hown, hyielded⟩ := hyielded
      obtain ⟨placedOwn, hplacedOwn, hownItems⟩ := h.exists_ownPieces hlt hown
      rw [hplacedOwn]
      cases hpartial : node.declaration.isPartial with
      | false =>
          simp only [hpartial, Bool.not_false, if_true] at hyielded
          cases hyielded
          exact ⟨⟨placedOwn, mirror⟩, rfl, hownItems, htraced⟩
      | true =>
          simp only [hpartial, Bool.not_true, Bool.false_eq_true, if_false, bind_eq_ok_iff]
            at hyielded
          obtain ⟨nested, hnested, initializer, hinitializer, hyielded⟩ := hyielded
          cases hyielded
          have hvisit : ∀ child ∈ part.relations.childrenOf id, ∀ withRoutine mirror yielded,
              Traced part place before withRoutine mirror →
              part.piecesWithin depth withRoutine child = .ok yielded →
              ∃ mirrored, whole.piecesWithin (depth + extra) mirror (place child) = .ok mirrored ∧
                Yield.Mirrors part place before yielded mirrored := by
            intro child hchild withRoutine mirror yielded htraced hyielded
            obtain ⟨_, hinstances⟩ := h.analysed.relations.mem_childrenOf_iff.mp hchild
            have hleft := h.analysed.size_le_of_child hacyclic hchild hdepth
            exact ih hinstances hleft htraced hyielded (hlevel child hchild)
          have hstart : Yield.Mirrors part place before ⟨[], withRoutine⟩ ⟨[], mirror⟩ :=
            ⟨rfl, htraced⟩
          obtain ⟨placedNested, hplacedNested, hmirrors⟩ := hstart.foldlM hvisit hnested
          have hplacedInitializer : whole.nestedRoutine placedNested.withRoutine (place id)
              (whole.relations.childrenOf (place id)) = .ok initializer := by
            rw [hchildren, h.nestedRoutine_place hmirrors.traced.placed hlt hlevel, hinitializer]
          rw [← hchildren] at hplacedNested
          refine ⟨_, bind_eq_ok_iff.mpr ⟨placedOwn, rfl, bind_eq_ok_iff.mpr ⟨placedNested,
            hplacedNested, bind_eq_ok_iff.mpr ⟨initializer, hplacedInitializer, rfl⟩⟩⟩, ?_⟩
          exact hmirrors.enter hownItems id node.declaration initializer

/-- What roots yield they yield in their places. -/
theorem exists_namespacePieces (h : Part part whole place) (hacyclic : part.graph.Acyclic)
    {yielded : Yield} (hlevel : ∀ id ∈ level, part.relations.instancesOf id ≠ [])
    (htraced : Traced part place before withRoutine mirror)
    (hyielded : part.namespacePieces withRoutine level = .ok yielded) :
    ∃ mirrored, whole.namespacePieces mirror (level.map place) = .ok mirrored ∧
      Yield.Mirrors part place before yielded mirrored := by
  have hstart : Yield.Mirrors part place before ⟨[], withRoutine⟩ ⟨[], mirror⟩ := ⟨rfl, htraced⟩
  obtain ⟨extra, hextra⟩ := Nat.exists_eq_add_of_le h.embeds.size_le
  refine hstart.foldlM (fun id hid withRoutine mirror yielded htraced hyielded => ?_) hyielded
  rw [piecesOf, hextra]
  exact h.exists_piecesWithin hacyclic (hlevel id hid) (Nat.le_add_right _ _) htraced hyielded

/-- What namespaces yield they yield in their places. -/
theorem exists_unitsOf (h : Part part whole place) (hacyclic : part.graph.Acyclic)
    {namespaces : List (String × List TypeId)} {units : List (String × List Piece)}
    {after : List TypeId}
    (hlevel : ∀ id ∈ namespaces.flatMap Prod.snd, part.relations.instancesOf id ≠ [])
    (htraced : Traced part place before withRoutine mirror)
    (hunits : part.unitsOf withRoutine namespaces = .ok (units, after)) :
    ∃ placedUnits placedAfter,
      whole.unitsOf mirror (namespaces.map (Prod.map id (List.map place))) =
        .ok (placedUnits, placedAfter) ∧
      placedUnits.map unitOf = units.map unitOf ∧
      Traced part place before after placedAfter := by
  induction namespaces generalizing withRoutine mirror units with
  | nil =>
      cases hunits
      exact ⟨[], mirror, rfl, rfl, htraced⟩
  | cons entry namespaces ih =>
      obtain ⟨name, roots⟩ := entry
      rw [List.flatMap_cons, List.forall_mem_append] at hlevel
      simp only [unitsOf, bind_eq_ok_iff] at hunits
      obtain ⟨yielded, hyielded, ⟨later, final⟩, hlater, hfinal⟩ := hunits
      cases hfinal
      obtain ⟨mirrored, hmirrored, hmirrors⟩ :=
        h.exists_namespacePieces hacyclic hlevel.1 htraced hyielded
      obtain ⟨placedLater, placedAfter, hplaced, hitems, hafter⟩ :=
        ih hlevel.2 hmirrors.traced hlater
      refine ⟨_, placedAfter, bind_eq_ok_iff.mpr ⟨mirrored, hmirrored, bind_eq_ok_iff.mpr
        ⟨(placedLater, placedAfter), hplaced, rfl⟩⟩, ?_, hafter⟩
      rw [hmirrors.isEmpty_eq]
      split
      · exact hitems
      · rw [List.map_cons, List.map_cons, hitems, unitOf, unitOf, hmirrors.items]
        rfl

end Part

/-! ## Two models side by side -/

/-- What namespaces yield one behind the other. -/
theorem unitsOf_append {model : ServiceModel} {namespaces more : List (String × List TypeId)}
    {units moreUnits : List (String × List Piece)} {middle after : List TypeId}
    (h : model.unitsOf withRoutine namespaces = .ok (units, middle))
    (hmore : model.unitsOf middle more = .ok (moreUnits, after)) :
    model.unitsOf withRoutine (namespaces ++ more) = .ok (units ++ moreUnits, after) := by
  induction namespaces generalizing withRoutine units with
  | nil =>
      cases h
      exact hmore
  | cons entry namespaces ih =>
      simp only [unitsOf, bind_eq_ok_iff] at h
      obtain ⟨yielded, hyielded, ⟨later, final⟩, hlater, hfinal⟩ := h
      cases hfinal
      refine bind_eq_ok_iff.mpr ⟨yielded, hyielded, bind_eq_ok_iff.mpr ⟨_, ih hlater, ?_⟩⟩
      dsimp only
      split <;> rfl

/-- The routine of two levels together does what their routines do, one behind the other. -/
theorem levelRoutine_append {model : ServiceModel} {more : List TypeId}
    {routine moreRoutine : Routine}
    (h : model.levelRoutine withRoutine level = .ok routine)
    (hmore : model.levelRoutine withRoutine more = .ok moreRoutine) :
    model.levelRoutine withRoutine (level ++ more) =
      .ok ⟨routine.registrations ++ moreRoutine.registrations,
        routine.childCalls ++ moreRoutine.childCalls⟩ := by
  obtain ⟨registrations, hregistrations, hroutine⟩ := bind_eq_ok_iff.mp h
  obtain ⟨moreRegistrations, hmoreRegistrations, hmoreRoutine⟩ := bind_eq_ok_iff.mp hmore
  cases hroutine
  cases hmoreRoutine
  have hregistered : model.registeredAt (level ++ more) =
      model.registeredAt level ++ model.registeredAt more := by
    rw [registeredAt, List.flatMap_append, List.filter_append]
    rfl
  rw [levelRoutine, hregistered, List.mapM_append, hregistrations, hmoreRegistrations,
    List.filter_append, List.map_append]
  rfl

namespace Composes

/-- The roots of a whole are those of the first part and, behind them, those of the second part. -/
theorem rootLevel_eq (h : Composes left right whole place otherPlace) :
    whole.rootLevel = left.rootLevel.map place ++ right.rootLevel.map otherPlace := by
  rw [rootLevel, h.namespaces_eq, List.flatMap_append, List.flatMap_map, List.flatMap_map]
  simp only [Prod.map_snd, rootLevel, List.map_flatMap]

/-- A whole whose parts have outlines has an outline, with the units of the first part and, behind
them, those of the second part. -/
theorem exists_outline (h : Composes left right whole place otherPlace)
    (hleft : left.graph.Acyclic) (hright : right.graph.Acyclic) {outline otherOutline : Outline}
    (houtline : left.outline = .ok outline) (hother : right.outline = .ok otherOutline) :
    ∃ composed, whole.outline = .ok composed ∧
      composed.units.map unitOf = outline.units.map unitOf ++ otherOutline.units.map unitOf ∧
      composed.root = ⟨outline.root.registrations ++ otherOutline.root.registrations,
        outline.root.childCalls ++ otherOutline.root.childCalls⟩ := by
  have hleftLevel := h.leftPart.analysed.level_rootLevel
  have hrightLevel := h.rightPart.analysed.level_rootLevel
  obtain ⟨after, hunits, hroot⟩ := cases_of_outline houtline
  obtain ⟨otherAfter, hotherUnits, hotherRoot⟩ := cases_of_outline hother
  have hstart : Traced left place [] [] [] := ⟨fun _ _ => by simp, fun _ _ => Iff.rfl⟩
  obtain ⟨units, middle, hplaced, hitems, htraced⟩ :=
    h.leftPart.exists_unitsOf hleft hleftLevel.instances hstart hunits
  -- No type of the second part has got a routine by then.
  have hmiddle : Traced right otherPlace middle [] middle := by
    refine ⟨fun id hid => ?_, fun _ _ => Iff.rfl⟩
    have hlt := h.rightPart.embeds.place_lt_iff.mpr hid
    rw [htraced.elsewhere _ fun hmem => h.disjoint _ hlt hmem (Set.mem_range_self id)]
    simp
  obtain ⟨otherPlacedUnits, final, hotherPlaced, hotherItems, hfinal⟩ :=
    h.rightPart.exists_unitsOf hright hrightLevel.instances hmiddle hotherUnits
  -- Nor do types of the first part get any from then on.
  have hkept : ∀ id < left.graph.size, (place id ∈ final ↔ id ∈ after) := by
    intro id hid
    have hlt := h.leftPart.embeds.place_lt_iff.mpr hid
    exact (hfinal.elsewhere _ (h.disjoint _ hlt (Set.mem_range_self id))).trans
      (htraced.placed id hid)
  rw [← h.leftPart.levelRoutine_place hkept fun id hid =>
    h.leftPart.analysed.lt_of_instances (hleftLevel.instances id hid)] at hroot
  rw [← h.rightPart.levelRoutine_place hfinal.placed fun id hid =>
    h.rightPart.analysed.lt_of_instances (hrightLevel.instances id hid)] at hotherRoot
  have hallUnits := unitsOf_append hplaced hotherPlaced
  have hallRoots := levelRoutine_append hroot hotherRoot
  rw [← h.namespaces_eq] at hallUnits
  rw [← h.rootLevel_eq] at hallRoots
  refine ⟨⟨_, _⟩, bind_eq_ok_iff.mpr ⟨_, hallUnits, bind_eq_ok_iff.mpr ⟨_, hallRoots, rfl⟩⟩,
    ?_, rfl⟩
  rw [List.map_append, hitems, hotherItems]

end Composes

/-! ## Programs -/

/-- Independent declarations that are built, are ready and have programs one by one are built
together wherever there is room for their types, are ready and have a program: the units of the
first program come first, unchanged, then those of the second one, and the root routine does what
the first root routine does and then what the second one does, registrations before calls. -/
theorem synthesize_independent {first second : List Declaration} {leftLimit rightLimit : Nat}
    {leftGraph rightGraph : TypeGraph} {hook : ModuleHook} {cancelled : Bool}
    {program otherProgram : Program} (hindependent : Independent first second)
    (hparsed : ∀ declaration ∈ first ++ second, ∀ t ∈ declaration.interfaces,
      ∃ text, TypeExpr.parse text = .ok t)
    (hfirst : buildWithin leftLimit first = .ok leftGraph)
    (hsecond : buildWithin rightLimit second = .ok rightGraph)
    (hleft : leftGraph.Acyclic) (hright : rightGraph.Acyclic)
    (hleftReady : ((ofGraph leftGraph).prepare .empty).outcome = .ready)
    (hrightReady : ((ofGraph rightGraph).prepare .empty).outcome = .ready)
    (hprogram : ((ofGraph leftGraph).prepare .empty).model.synthesize hook cancelled = .ok program)
    (hother : ((ofGraph rightGraph).prepare .empty).model.synthesize hook cancelled =
      .ok otherProgram) :
    ∃ graph, graph.size = leftGraph.size + rightGraph.size ∧
      (∀ limit, graph.size ≤ limit → buildWithin limit (first ++ second) = .ok graph) ∧
      ((ofGraph graph).prepare .empty).outcome = .ready ∧
      ((ofGraph graph).prepare .empty).model.synthesize hook cancelled =
        .ok ⟨program.units ++ otherProgram.units,
          ⟨program.root.registrations ++ otherProgram.root.registrations,
            program.root.childCalls ++ otherProgram.root.childCalls⟩, hook⟩ := by
  have hwellFormed : ∀ declaration ∈ first ++ second, ∀ t ∈ declaration.interfaces,
      t.WellFormed := by
    intro declaration hmem t ht
    obtain ⟨_, htext⟩ := hparsed declaration hmem t ht
    exact TypeExpr.wellFormed_of_parse htext
  obtain ⟨graph, hjoins⟩ := exists_joins hindependent hwellFormed hfirst hsecond
  obtain ⟨hready, place, otherPlace, hcomposes⟩ := exists_composes hjoins hindependent hwellFormed
    hfirst hsecond hleftReady hrightReady
  refine ⟨graph, hjoins.size_eq hindependent.disjoint, hjoins.build, hready, ?_⟩
  obtain ⟨hleftGraph, _⟩ := analysed_of_prepare hfirst hleftReady
  obtain ⟨hrightGraph, _⟩ := analysed_of_prepare hsecond hrightReady
  obtain ⟨hstop, outline, houtline, rfl⟩ := synthesize_eq_ok_iff.mp hprogram
  obtain ⟨hotherStop, otherOutline, hotherOutline, rfl⟩ := synthesize_eq_ok_iff.mp hother
  rw [← hleftGraph] at hleft
  rw [← hrightGraph] at hright
  obtain ⟨composed, hcomposed, hunits, hroot⟩ :=
    hcomposes.exists_outline hleft hright houtline hotherOutline
  refine synthesize_eq_ok_iff.mpr ⟨fun hcancelled => ?_, composed, hcomposed, ?_⟩
  · rw [hcomposes.namespaces_eq, hstop hcancelled, hotherStop hcancelled]
    rfl
  · show _ = Program.mk (composed.units.map unitOf) composed.root hook
    rw [hunits, hroot]
    rfl

/-- A service in a type of another namespace. -/
def hostedService : List Declaration :=
  [(Declaration.ofPath .classType "M" "Host").asPartial,
   { (Declaration.ofPath .interface "M" "Host.IPing").marked with
      interfaces := [⟨baseInterfaceName, [], ""⟩] }]

/-- The graph of `hostedService`. -/
def hostedServiceGraph : TypeGraph :=
  ⟨[⟨hostedService[0], none, 0⟩, ⟨hostedService[1], some 0, 1⟩]⟩

/-- Behind a generic family, the types that are added for which come last, the service has its
program as before. -/
theorem synthesize_familyAndService :
    ∃ program otherProgram graph,
      ((ofGraph genericFamilyGraph).prepare .empty).model.synthesize default false = .ok program ∧
      ((ofGraph hostedServiceGraph).prepare .empty).model.synthesize default false =
        .ok otherProgram ∧
      TypeGraph.build (genericFamily ++ hostedService) = .ok graph ∧ graph.size = 7 ∧
      ((ofGraph graph).prepare .empty).model.synthesize default false =
        .ok ⟨program.units ++ otherProgram.units,
          ⟨program.root.registrations ++ otherProgram.root.registrations,
            program.root.childCalls ++ otherProgram.root.childCalls⟩, default⟩ := by
  have hfirst : TypeGraph.build genericFamily = .ok genericFamilyGraph := by rfl
  have hsecond : TypeGraph.build hostedService = .ok hostedServiceGraph := by rfl
  have hread : ((genericFamily ++ hostedService).all fun declaration =>
      declaration.interfaces.all fun t => decide (TypeExpr.parse t.display = .ok t)) = true := by
        decide +kernel
  have hindependent : Independent genericFamily hostedService := by
    constructor
    case names => decide
    case otherNames => decide
    case families => decide
    case namespaces => decide
    case plain =>
      have hplain : ((genericFamily ++ hostedService).all fun declaration =>
          ['?', '*', '[', '('].all fun c => decide (c ∉ declaration.fullName.toList)) = true := by
            decide +kernel
      exact fun declaration hmem c hc => of_decide_eq_true
        (List.all_eq_true.mp (List.all_eq_true.mp hplain declaration hmem) c hc)
  have hready : ((ofGraph genericFamilyGraph).prepare .empty).outcome = .ready :=
    outcome_prepare_of_all (by decide)
  have hotherReady : ((ofGraph hostedServiceGraph).prepare .empty).outcome = .ready :=
    outcome_prepare_of_all (by decide)
  obtain ⟨program, hprogram⟩ := exists_program_of_forall_ids hfirst hready default (by decide)
  obtain ⟨otherProgram, hotherProgram⟩ :=
    exists_program_of_forall_ids hsecond hotherReady default (by decide)
  obtain ⟨graph, hsize, hbuild, _, hboth⟩ := synthesize_independent hindependent
    (fun declaration hmem t ht => ⟨t.display, of_decide_eq_true
      (List.all_eq_true.mp (List.all_eq_true.mp hread declaration hmem) t ht)⟩)
    hfirst hsecond (acyclic_of_lt (by decide)) (acyclic_of_lt (by decide)) hready hotherReady
    hprogram hotherProgram
  have hseven : graph.size = 7 := hsize
  refine ⟨program, otherProgram, graph, hprogram, hotherProgram, hbuild _ ?_, hseven, hboth⟩
  rw [hseven]
  decide

end RadioBroker.ServiceModel
