import RadioBroker.Proofs.ServiceModel.Counts

/-!
# Problems that are reported once

The report of a type that is not partial says which type it is, and that of a method without
dispatch kind says which method of which definition. So each of these problems is reported exactly
once, however many services there are in the type, and however many of them get the method, and
through however many applications of the definition.
-/

namespace RadioBroker

open Relation

/-- What is said without repetition, of things that it tells apart, is said once of each. -/
theorem exists_nodup_map {α β : Type} {holds : α → Prop} {say : α → β} {said : List β}
    (hnodup : said.Nodup) (hmem : ∀ b, b ∈ said ↔ ∃ a, holds a ∧ say a = b)
    (hinj : ∀ a other, holds a → holds other → say a = say other → a = other) :
    ∃ as : List α, as.Nodup ∧ (∀ a, a ∈ as ↔ holds a) ∧ said = as.map say := by
  have hlift : ∀ bs : List β, (∀ b ∈ bs, ∃ a, holds a ∧ say a = b) →
      ∃ as : List α, (∀ a ∈ as, holds a) ∧ bs = as.map say := by
    intro bs hbs
    induction bs with
    | nil => exact ⟨[], by simp, rfl⟩
    | cons b bs ih =>
        obtain ⟨a, ha, rfl⟩ := hbs b List.mem_cons_self
        obtain ⟨as, hall, rfl⟩ := ih fun other hother => hbs other (List.mem_cons_of_mem _ hother)
        exact ⟨a :: as, List.forall_mem_cons.mpr ⟨ha, hall⟩, rfl⟩
  obtain ⟨as, hall, rfl⟩ := hlift said fun b => (hmem b).mp
  refine ⟨as, hnodup.of_map, fun a => ⟨hall a, ?_⟩, rfl⟩
  intro ha
  obtain ⟨other, hother, heq⟩ := List.mem_map.mp ((hmem (say a)).mpr ⟨a, ha, rfl⟩)
  exact hinj other a (hall other hother) ha heq ▸ hother

/-- A list without repetition that has one member is that member. -/
theorem eq_singleton_of_nodup {α : Type} {a : α} {as : List α} (hnodup : as.Nodup)
    (hmem : ∀ b, b ∈ as ↔ b = a) : as = [a] := by
  refine List.perm_singleton.mp
    ((List.perm_ext_iff_of_nodup hnodup (List.nodup_singleton a)).mpr ?_)
  intro b
  rw [hmem, List.mem_singleton]

namespace TypeGraph

variable {graph : TypeGraph} {id : TypeId} {node : TypeNode} {candidate : Candidate} {slot : Nat}

/-- Every closed type is what its definition yields when it is applied. -/
def ClosedByDefinitions (graph : TypeGraph) : Prop :=
  ∀ id node, graph.node? id = some node → ∀ name arguments,
    node.declaration.generics = .closedOver name arguments →
    ∃ definition, graph.node? node.definition = some definition ∧
      definition.declaration.close arguments = .ok node.declaration

/-- The report of a method of a definition, by the position of the method in it. -/
def unsupportedMethod? (graph : TypeGraph) (entry : TypeId × Nat) : Option Diagnostic :=
  (graph.node? entry.1).bind fun node => node.declaration.methods[entry.2]?.map fun method =>
    ⟨.unsupportedReturnType method.name node.declaration.fullName entry.2, method.location⟩

/-- A type declares what its definition declares, position by position. -/
theorem exists_definition_method (hgraph : graph.WellFormed) (hclosed : graph.ClosedByDefinitions)
    (hnode : graph.node? id = some node) {method : Method}
    (hmethod : node.declaration.methods[slot]? = some method) :
    ∃ definition declared, graph.node? node.definition = some definition ∧
      definition.declaration.methods[slot]? = some declared ∧
      declared.name = method.name ∧ declared.location = method.location := by
  cases hgenerics : node.declaration.generics with
  | closedOver name arguments =>
      obtain ⟨definition, hdefinition, hclose⟩ := hclosed id node hnode name arguments hgenerics
      obtain ⟨parameters, _, _, hresult⟩ := Declaration.close_eq_ok_iff.mp hclose
      rw [← hresult, Declaration.closeOver, List.getElem?_map, Option.map_eq_some_iff] at hmethod
      obtain ⟨declared, hdeclared, rfl⟩ := hmethod
      exact ⟨definition, declared, hdefinition, hdeclared, rfl, rfl⟩
  | notGeneric | openOver _ =>
      have hself : graph.definitionOf id = id :=
        hgraph.definition_self hnode (by rw [hgenerics]; rfl)
      have hdefinition : node.definition = id := by simpa [definitionOf, hnode] using hself
      exact ⟨node, method, hdefinition ▸ hnode, hmethod, rfl, rfl⟩

/-- A candidate that a type declares stands there at its position. -/
theorem of_mem_declaredCandidates {interface : String}
    (h : candidate ∈ graph.declaredCandidates node interface) :
    node.declaration.methods[candidate.slot]? = some candidate.method ∧
      candidate.definition = graph.fullName node.definition := by
  obtain ⟨⟨method, position⟩, hmem, hcandidate⟩ := List.mem_filterMap.mp h
  dsimp only at hcandidate
  split at hcandidate
  · cases hcandidate
    exact ⟨List.mem_zipIdx_iff_getElem?.mp hmem, rfl⟩
  · cases hcandidate

/-- A candidate stands in a type of the graph. -/
theorem exists_of_mem_candidates (h : candidate ∈ graph.candidates id) :
    ∃ declaring node, graph.node? declaring = some node ∧
      node.declaration.methods[candidate.slot]? = some candidate.method ∧
      candidate.definition = graph.fullName node.definition := by
  unfold candidates at h
  split at h
  · cases h
  · rename_i node hnode
    rcases List.mem_append.mp h with hown | hinherited
    · exact ⟨id, node, hnode, of_mem_declaredCandidates hown⟩
    · obtain ⟨t, _, hcandidate⟩ := List.mem_flatMap.mp hinherited
      unfold inheritedCandidates at hcandidate
      split at hcandidate
      · cases hcandidate
      · rename_i base hbase
        obtain ⟨declaring, hdeclaring⟩ :=
          List.mem_iff_getElem?.mp (List.mem_of_find?_eq_some hbase)
        exact ⟨declaring, base, hdeclaring, of_mem_declaredCandidates hcandidate⟩

/-- What is reported of a candidate without dispatch kind is the report of a method of its
definition. -/
theorem Unsupported.exists_definition (hgraph : graph.WellFormed)
    (hclosed : graph.ClosedByDefinitions) (h : graph.Unsupported candidate) :
    ∃ definition < graph.size, candidate.definition = graph.fullName definition ∧
      graph.unsupportedMethod? (definition, candidate.slot) =
        some candidate.unsupportedDiagnostic := by
  obtain ⟨id, _, position, hcandidate, _⟩ := h
  obtain ⟨declaring, node, hnode, hmethod, hname⟩ :=
    exists_of_mem_candidates (List.mem_of_getElem? hcandidate)
  obtain ⟨definition, declared, hdefinition, hdeclared, hsame, hplace⟩ :=
    exists_definition_method hgraph hclosed hnode hmethod
  refine ⟨node.definition, exists_node_iff.mp ⟨definition, hdefinition⟩, hname, ?_⟩
  rw [fullName_of_node hdefinition] at hname
  simp [unsupportedMethod?, hdefinition, hdeclared, hsame, hplace, ← hname,
    Candidate.unsupportedDiagnostic]

end TypeGraph

namespace ServiceModel

variable {graph : TypeGraph}

/-- Each type that is not partial and encloses a checked type is reported once. -/
theorem parents_reported_once (hgraph : graph.WellFormed) (hacyclic : graph.Acyclic) :
    ∃ parents : List TypeId, parents.Nodup ∧
      (∀ outer, outer ∈ parents ↔ ¬ graph.IsPartial outer ∧
        ∃ inner, graph.Checked inner ∧ TransGen graph.Encloses outer inner) ∧
      reportedAs ((ofGraph graph).prepare .empty).delivered "CCG001" =
        parents.map graph.notPartialDiagnostic := by
  have hblocks : ∀ outer, graph.Blocks outer ↔ ¬ graph.IsPartial outer ∧
      ∃ inner, graph.Checked inner ∧ TransGen graph.Encloses outer inner := by
    intro outer
    simp only [TypeGraph.Blocks, TypeGraph.mem_ancestors_iff hgraph hacyclic]
    refine and_iff_right_of_imp ?_
    rintro ⟨_, inner, _, hpath⟩
    obtain ⟨middle, hstep, _⟩ := TransGen.head'_iff.mp hpath
    exact hgraph.parent_lt hstep
  simp only [← hblocks]
  refine exists_nodup_map (nodup_reportedAs_delivered graph _) ?_ ?_
  · intro diagnostic
    simp [mem_reportedAs_delivered_iff, TypeGraph.reported_and_code_iff]
  · intro outer other houter hother heq
    have hname : graph.fullName outer = graph.fullName other := by
      simpa [TypeGraph.notPartialDiagnostic] using congrArg Diagnostic.problem heq
    exact hgraph.fullName_inj houter.1 hother.1 hname

/-- Each method of a definition that some checked type gets first of its signature, and whose return
type has no dispatch kind there, is reported once. -/
theorem methods_reported_once (hgraph : graph.WellFormed) (hclosed : graph.ClosedByDefinitions) :
    ∃ methods : List (TypeId × Nat), methods.Nodup ∧
      (∀ entry, entry ∈ methods ↔ entry.1 < graph.size ∧ ∃ candidate, graph.Unsupported candidate ∧
        candidate.definition = graph.fullName entry.1 ∧ candidate.slot = entry.2) ∧
      (reportedAs ((ofGraph graph).prepare .empty).delivered "CCG003").map some =
        methods.map graph.unsupportedMethod? := by
  have hreport : ∀ entry : TypeId × Nat, entry.1 < graph.size → ∀ candidate,
      graph.Unsupported candidate → candidate.definition = graph.fullName entry.1 →
      candidate.slot = entry.2 →
      graph.unsupportedMethod? entry = some candidate.unsupportedDiagnostic := by
    intro entry hlt candidate hcandidate hdefinition hslot
    obtain ⟨definition, hdefinitionLt, hname, hsay⟩ := hcandidate.exists_definition hgraph hclosed
    cases hgraph.fullName_inj hdefinitionLt hlt (hname.symm.trans hdefinition)
    rwa [hslot] at hsay
  have hnodup := (nodup_reportedAs_delivered graph "CCG003").map (Option.some_injective _)
  refine exists_nodup_map hnodup ?_ ?_
  · intro reported
    have hreported : reported ∈
        (reportedAs ((ofGraph graph).prepare .empty).delivered "CCG003").map some ↔
          ∃ candidate, graph.Unsupported candidate ∧
            some candidate.unsupportedDiagnostic = reported := by
      simp [mem_reportedAs_delivered_iff, TypeGraph.reported_and_code_iff]
    rw [hreported]
    constructor
    · rintro ⟨candidate, hcandidate, rfl⟩
      obtain ⟨definition, hlt, hname, hsay⟩ := hcandidate.exists_definition hgraph hclosed
      exact ⟨(definition, candidate.slot), ⟨hlt, candidate, hcandidate, hname, rfl⟩, hsay⟩
    · rintro ⟨entry, ⟨hlt, candidate, hcandidate, hdefinition, hslot⟩, rfl⟩
      exact ⟨candidate, hcandidate,
        (hreport entry hlt candidate hcandidate hdefinition hslot).symm⟩
  · rintro entry other ⟨hlt, candidate, hcandidate, hdefinition, hslot⟩
      ⟨hotherLt, twin, htwin, htwinDefinition, htwinSlot⟩ heq
    rw [hreport entry hlt candidate hcandidate hdefinition hslot,
      hreport other hotherLt twin htwin htwinDefinition htwinSlot] at heq
    have hproblem := congrArg Diagnostic.problem (Option.some.inj heq)
    simp only [Candidate.unsupportedDiagnostic, Problem.unsupportedReturnType.injEq] at hproblem
    obtain ⟨_, hsameDefinition, hsameSlot⟩ := hproblem
    refine Prod.ext (hgraph.fullName_inj hlt hotherLt ?_) ?_
    · rw [← hdefinition, ← htwinDefinition, hsameDefinition]
    · rw [← hslot, ← htwinSlot, hsameSlot]

/-- In declarations whose closed types are what their definitions yield, each type that is not
partial and encloses a checked type is reported once, and nothing else is under that number; and so
is each method of a definition that some checked type gets, itself or from any base, first of its
signature and without dispatch kind. -/
theorem problems_reported_once {declarations : List Declaration} {graph : TypeGraph}
    (hbuild : TypeGraph.build declarations = .ok graph) (hacyclic : graph.Acyclic)
    (hclosed : graph.ClosedByDefinitions) :
    let delivered := ((ofGraph graph).prepare .empty).delivered
    (∃ parents : List TypeId, parents.Nodup ∧
      (∀ outer, outer ∈ parents ↔ ¬ graph.IsPartial outer ∧
        ∃ inner, graph.Checked inner ∧ TransGen graph.Encloses outer inner) ∧
      reportedAs delivered "CCG001" = parents.map graph.notPartialDiagnostic) ∧
    ∃ methods : List (TypeId × Nat), methods.Nodup ∧
      (∀ entry, entry ∈ methods ↔ entry.1 < graph.size ∧ ∃ candidate, graph.Unsupported candidate ∧
        candidate.definition = graph.fullName entry.1 ∧ candidate.slot = entry.2) ∧
      (reportedAs delivered "CCG003").map some = methods.map graph.unsupportedMethod? := by
  have hgraph := TypeGraph.wellFormed_of_build hbuild
  exact ⟨parents_reported_once hgraph hacyclic, methods_reported_once hgraph hclosed⟩

/-- Two services in a type that is not partial. Each has another application of one definition as a
base, which declares a method without dispatch kind. No places are known. -/
def sharedBase : List Declaration :=
  let service (name argument : String) : Declaration :=
    { (Declaration.ofPath .interface "N" ("Outer." ++ name)).marked with
      interfaces := [⟨baseInterfaceName, [], ""⟩, ⟨"N.IBase", [⟨argument, [], ""⟩], ""⟩] }
  [Declaration.ofPath .classType "N" "Outer", service "I" "int", service "J" "string",
   { (Declaration.ofPath .interface "N" "IBase").openGeneric ["T"] with
      methods := [⟨"Bad", ⟨"int", [], ""⟩, [⟨"T", [], ""⟩], none, {}⟩] }]

/-- The graph of `sharedBase`, with both applications. -/
def sharedBaseGraph : TypeGraph :=
  ⟨[⟨sharedBase[0], none, 0⟩, ⟨sharedBase[1], some 0, 1⟩, ⟨sharedBase[2], some 0, 2⟩,
    ⟨sharedBase[3], none, 3⟩, ⟨sharedBase[3].closeOver ["T"] [⟨"int", [], ""⟩], none, 3⟩,
    ⟨sharedBase[3].closeOver ["T"] [⟨"string", [], ""⟩], none, 3⟩]⟩

/-- Both applications are what their definition yields. -/
theorem closedByDefinitions_sharedBase : sharedBaseGraph.ClosedByDefinitions := by
  intro id node hnode name arguments hgenerics
  have hmem := List.mem_of_getElem? hnode
  simp only [sharedBaseGraph, List.mem_cons, List.not_mem_nil, or_false] at hmem
  rcases hmem with rfl | rfl | rfl | rfl | rfl | rfl
  iterate 4 cases hgenerics
  all_goals
    cases hgenerics
    exact ⟨_, rfl, rfl⟩

/-- The first service is checked. -/
theorem checked_sharedBase : sharedBaseGraph.Checked 1 :=
  ⟨by decide, @TypeGraph.extendsBase_of_declared _ sharedBaseGraph.nodes[1] _ rfl (by decide)⟩

/-- Only the outer type encloses a service without being partial. -/
theorem encloses_sharedBase (outer : TypeId) :
    (¬ sharedBaseGraph.IsPartial outer ∧
      ∃ inner, sharedBaseGraph.Checked inner ∧ TransGen sharedBaseGraph.Encloses outer inner) ↔
        outer = 0 := by
  have houter : ∀ inner < sharedBaseGraph.size, sharedBaseGraph.parent? inner = none ∨
      sharedBaseGraph.parent? inner = some 0 := by
    decide
  constructor
  · rintro ⟨_, inner, _, hpath⟩
    obtain ⟨middle, hstep, _⟩ := TransGen.head'_iff.mp hpath
    rcases houter middle hstep.inner_lt with hnone | hsome
    · cases hnone.symm.trans hstep
    · exact (Option.some.inj (hsome.symm.trans hstep)).symm
  · rintro rfl
    exact ⟨TypeGraph.not_isPartial rfl rfl, 1, checked_sharedBase, .single rfl⟩

/-- Only the method of the definition is not supported, whichever application it comes from. -/
theorem unsupported_sharedBase (entry : TypeId × Nat) :
    (entry.1 < sharedBaseGraph.size ∧ ∃ candidate, sharedBaseGraph.Unsupported candidate ∧
      candidate.definition = sharedBaseGraph.fullName entry.1 ∧ candidate.slot = entry.2) ↔
        entry = (3, 0) := by
  have hbuild : TypeGraph.build sharedBase = .ok sharedBaseGraph := by rfl
  have hall : sharedBaseGraph.ids.flatMap (fun id => (sharedBaseGraph.candidates id).map
      fun candidate => (candidate.definition, candidate.slot)) =
      List.replicate 5 ("N.IBase<T>", 0) := by
    decide +kernel
  have hcandidates : sharedBaseGraph.candidates 1 =
      [⟨⟨"Bad", ⟨"int", [], ""⟩, [⟨"int", [], ""⟩], none, {}⟩, "N.IBase<int>", "N.IBase<int>",
        "N.IBase<T>", 0⟩] := by
    decide +kernel
  constructor
  · rintro ⟨hlt, candidate, ⟨id, hid, position, hcandidate, _⟩, hdefinition, hslot⟩
    have hmem : (candidate.definition, candidate.slot) ∈ List.replicate 5 ("N.IBase<T>", 0) := by
      rw [← hall]
      exact List.mem_flatMap.mpr ⟨id, TypeGraph.mem_ids.mpr (TypeGraph.lt_of_serviceBound? hid.1),
        List.mem_map_of_mem (List.mem_of_getElem? hcandidate)⟩
    obtain ⟨hname, hposition⟩ := Prod.mk.inj (List.eq_of_mem_replicate hmem)
    refine Prod.ext ?_ (hslot.symm.trans hposition)
    exact (TypeGraph.wellFormed_of_build hbuild).fullName_inj hlt (by decide)
      (hdefinition.symm.trans hname)
  · rintro rfl
    exact ⟨by decide, _, ⟨1, checked_sharedBase, 0, by rw [hcandidates]; rfl, rfl, by decide⟩, rfl,
      rfl⟩

/-- The type and the method are reported once each. -/
theorem once_sharedBase :
    TypeGraph.build sharedBase = .ok sharedBaseGraph ∧ sharedBaseGraph.Acyclic ∧
      sharedBaseGraph.ClosedByDefinitions ∧
      reportedAs ((ofGraph sharedBaseGraph).prepare .empty).delivered "CCG001" =
        [⟨.notPartialParent "N.Outer", {}⟩] ∧
      reportedAs ((ofGraph sharedBaseGraph).prepare .empty).delivered "CCG003" =
        [⟨.unsupportedReturnType "Bad" "N.IBase<T>" 0, {}⟩] := by
  have hbuild : TypeGraph.build sharedBase = .ok sharedBaseGraph := by rfl
  have hacyclic : sharedBaseGraph.Acyclic := TypeGraph.acyclic_of_lt (by decide)
  have hclosed := closedByDefinitions_sharedBase
  obtain ⟨⟨parents, hparentsNodup, hparents, hparentReports⟩,
    methods, hmethodsNodup, hmethods, hmethodReports⟩ :=
      problems_reported_once hbuild hacyclic hclosed
  rw [eq_singleton_of_nodup hparentsNodup fun outer =>
    (hparents outer).trans (encloses_sharedBase outer)] at hparentReports
  rw [eq_singleton_of_nodup hmethodsNodup fun entry =>
    (hmethods entry).trans (unsupported_sharedBase entry)] at hmethodReports
  refine ⟨hbuild, hacyclic, hclosed, hparentReports, ?_⟩
  have hreports :
      (reportedAs ((ofGraph sharedBaseGraph).prepare .empty).delivered "CCG003").map some =
      [⟨.unsupportedReturnType "Bad" "N.IBase<T>" 0, {}⟩].map some := hmethodReports
  exact List.map_injective_iff.mpr (Option.some_injective _) hreports

end ServiceModel

end RadioBroker
