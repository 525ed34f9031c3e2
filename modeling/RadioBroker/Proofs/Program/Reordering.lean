import RadioBroker.Declaration.Builder
import RadioBroker.Proofs.Program.Inclusion
import RadioBroker.Proofs.Program.Totality
import RadioBroker.Proofs.ServiceModel.Reordering

/-!
# Declarations in another order

The order in which types are declared does not matter: the same types are found, their preparation
ends alike and reports the same, and what is generated registers the same services.
-/

namespace RadioBroker.ServiceModel

open TypeGraph

variable {model other : ServiceModel} {id twin : TypeId}

/-! ## Root routines -/

namespace Reordered

/-- Twins are registered alike. -/
theorem registrationOf_eq (h : Reordered model other)
    (htwins : Twins model.graph other.graph id twin) :
    model.registrationOf id = other.registrationOf twin := by
  rw [registrationOf, registrationOf, h.included.brokerPath_eq (h.graph.definitionOf htwins),
    htwins.fullName_eq, h.included.maxLinks_eq htwins, brokerArguments, brokerArguments,
    genericsOf_eq htwins]

/-- What is registered at the roots has a twin that is registered at the roots. -/
theorem registeredAt_rootLevel (h : Reordered model other)
    (htwins : Twins model.graph other.graph id twin)
    (hid : id ∈ model.registeredAt model.rootLevel) :
    twin ∈ other.registeredAt other.rootLevel := by
  obtain ⟨hlevel, hservice, hopen⟩ := h.analysed.mem_registeredAt_iff.mp hid
  rw [h.included.isService_eq htwins] at hservice
  rw [genericsOf_eq htwins] at hopen
  refine h.otherAnalysed.mem_registeredAt_iff.mpr ⟨?_, hservice, hopen⟩
  have hdefinition := h.graph.definitionOf htwins
  obtain ⟨root, hroot, hsame⟩ := h.exists_root
    (h.analysed.relations.mem_roots_iff.mpr (h.analysed.mem_rootLevel_iff.mp hlevel))
  rw [h.graph.twins_unique hdefinition hsame]
  exact h.otherAnalysed.mem_rootLevel_iff.mpr (h.otherAnalysed.relations.mem_roots_iff.mp hroot)

end Reordered

/-- The root routine of a program is the routine of the root level. -/
theorem exists_levelRoutine_of_synthesize {hook : ModuleHook} {cancelled : Bool}
    {program : Program} (h : model.synthesize hook cancelled = .ok program) :
    ∃ withRoutine, model.levelRoutine withRoutine model.rootLevel = .ok program.root := by
  obtain ⟨outline, houtline, rfl⟩ := exists_outline_of_synthesize h
  obtain ⟨withRoutine, _, hroot⟩ := cases_of_outline houtline
  exact ⟨withRoutine, hroot⟩

/-- Programs of models that differ in order have root routines that register the same. -/
theorem Reordered.registrations_subset (h : Reordered model other) {hook otherHook : ModuleHook}
    {cancelled otherCancelled : Bool} {program otherProgram : Program}
    (hprogram : model.synthesize hook cancelled = .ok program)
    (hother : other.synthesize otherHook otherCancelled = .ok otherProgram) :
    program.root.registrations ⊆ otherProgram.root.registrations := by
  obtain ⟨_, hroot⟩ := exists_levelRoutine_of_synthesize hprogram
  obtain ⟨_, hotherRoot⟩ := exists_levelRoutine_of_synthesize hother
  rw [(h.analysed.levelRoutine_eq_ok_iff.mp hroot).2,
    (h.otherAnalysed.levelRoutine_eq_ok_iff.mp hotherRoot).2]
  intro registration hregistration
  obtain ⟨id, hid, rfl⟩ := List.mem_map.mp hregistration
  have hservice := (h.analysed.mem_registeredAt_iff.mp hid).2.1
  obtain ⟨twin, htwins⟩ := h.graph.exists_twins (h.analysed.lt_of_isService hservice)
  exact List.mem_map.mpr
    ⟨twin, h.registeredAt_rootLevel htwins hid, (h.registrationOf_eq htwins).symm⟩

/-! ## The whole way -/

/-- Two preparations come to the same but for order. -/
structure PreparedAlike (first second : Prepared) : Prop where
  outcome : first.outcome = second.outcome
  delivered : ∀ diagnostic, diagnostic ∈ first.delivered ↔ diagnostic ∈ second.delivered
  agrees : first.outcome = .ready → Agrees first.model second.model
  registrations : first.outcome = .ready → ∀ {hook otherHook : ModuleHook}
    {cancelled otherCancelled : Bool} {program otherProgram : Program},
    first.model.synthesize hook cancelled = .ok program →
    second.model.synthesize otherHook otherCancelled = .ok otherProgram →
    ∀ registration, registration ∈ program.root.registrations ↔
      registration ∈ otherProgram.root.registrations

/-- Declarations in another order, with extension lists that were read and without two definitions
of one family name and number of parameters, are built into types of the same names, and preparing
these comes to the same. -/
theorem reordered_declarations_agree {given reordered : List Declaration}
    {graph another : TypeGraph} (hperm : given.Perm reordered)
    (hread : ∀ declaration ∈ given, ∀ t ∈ declaration.interfaces,
      ∃ text, TypeExpr.parse text = .ok t)
    (hfamilies : FamiliesDistinct given) (hbuild : TypeGraph.build given = .ok graph)
    (hother : TypeGraph.build reordered = .ok another) :
    SameNames graph another graph.ids another.ids ∧
      PreparedAlike ((ofGraph graph).prepare .empty) ((ofGraph another).prepare .empty) := by
  have hgiven : ∀ declaration ∈ given, ∀ t ∈ declaration.interfaces, t.WellFormed := by
    intro declaration hmem t ht
    obtain ⟨text, htext⟩ := hread declaration hmem t ht
    exact TypeExpr.wellFormed_of_parse htext
  have hgraph := reordering_of_build hbuild hother hperm hfamilies hgiven
  refine ⟨hgraph.sameNames, ?_⟩
  constructor
  case outcome => exact hgraph.outcome_eq
  case delivered => exact fun _ => hgraph.mem_delivered_iff
  case agrees => exact fun hready => (reordered_of_prepare hgraph hbuild hother hready).agrees
  case registrations =>
    intro hready _ _ _ _ _ _ hprogram hotherProgram registration
    have h := reordered_of_prepare hgraph hbuild hother hready
    exact ⟨fun hmem => h.registrations_subset hprogram hotherProgram hmem,
      fun hmem => h.symm.registrations_subset hotherProgram hprogram hmem⟩

/-- A marked definition and two types that extend applications of it. -/
def genericFamily : List Declaration :=
  [{ ((Declaration.ofPath .interface "N" "G").marked).openGeneric ["T"] with
      interfaces := [⟨baseInterfaceName, [], ""⟩] },
   { Declaration.ofPath .interface "N" "A" with interfaces := [⟨"N.G", [⟨"int", [], ""⟩], ""⟩] },
   { Declaration.ofPath .interface "N" "B" with interfaces := [⟨"N.G", [⟨"bool", [], ""⟩], ""⟩] }]

/-- The definition of `genericFamily` applied to `int` and to `bool`. -/
def genericFamilyClosed : List Declaration :=
  [genericFamily[0].closeOver ["T"] [⟨"int", [], ""⟩],
   genericFamily[0].closeOver ["T"] [⟨"bool", [], ""⟩]]

/-- The graph of `genericFamily`. -/
def genericFamilyGraph : TypeGraph :=
  ⟨[⟨genericFamily[0], none, 0⟩, ⟨genericFamily[1], none, 1⟩, ⟨genericFamily[2], none, 2⟩,
    ⟨genericFamilyClosed[0], none, 0⟩, ⟨genericFamilyClosed[1], none, 0⟩]⟩

/-- The graph of `genericFamily` in reverse order: other types are found first. -/
def genericFamilyReversed : TypeGraph :=
  ⟨[⟨genericFamily[2], none, 0⟩, ⟨genericFamily[1], none, 1⟩, ⟨genericFamily[0], none, 2⟩,
    ⟨genericFamilyClosed[1], none, 2⟩, ⟨genericFamilyClosed[0], none, 2⟩]⟩

/-- The family comes to the same in both orders: it is ready, and two programs register the same. -/
theorem reordered_genericFamily :
    ((ofGraph genericFamilyGraph).prepare .empty).outcome = .ready ∧
      SameNames genericFamilyGraph genericFamilyReversed genericFamilyGraph.ids
        genericFamilyReversed.ids ∧
      PreparedAlike ((ofGraph genericFamilyGraph).prepare .empty)
        ((ofGraph genericFamilyReversed).prepare .empty) ∧
      ∃ program otherProgram,
        ((ofGraph genericFamilyGraph).prepare .empty).model.synthesize default false = .ok program ∧
        ((ofGraph genericFamilyReversed).prepare .empty).model.synthesize default false =
          .ok otherProgram ∧
        ∀ registration, registration ∈ program.root.registrations ↔
          registration ∈ otherProgram.root.registrations := by
  have hbuild : TypeGraph.build genericFamily = .ok genericFamilyGraph := by rfl
  have hother : TypeGraph.build genericFamily.reverse = .ok genericFamilyReversed := by rfl
  have hread : (genericFamily.all fun declaration => declaration.interfaces.all fun t =>
      decide (TypeExpr.parse t.display = .ok t)) = true := by decide +kernel
  have hfamilies : FamiliesDistinct genericFamily := by
    unfold FamiliesDistinct
    decide
  have hready : ((ofGraph genericFamilyGraph).prepare .empty).outcome = .ready :=
    outcome_prepare_of_all (by decide)
  have hotherReady : ((ofGraph genericFamilyReversed).prepare .empty).outcome = .ready :=
    outcome_prepare_of_all (by decide)
  obtain ⟨hnames, halike⟩ := reordered_declarations_agree (List.reverse_perm genericFamily).symm
    (fun declaration hmem t ht => ⟨t.display, of_decide_eq_true
      (List.all_eq_true.mp (List.all_eq_true.mp hread declaration hmem) t ht)⟩)
    hfamilies hbuild hother
  obtain ⟨program, hprogram⟩ := exists_program_of_forall_ids hbuild hready default (by decide)
  obtain ⟨otherProgram, hotherProgram⟩ :=
    exists_program_of_forall_ids hother hotherReady default (by decide)
  exact ⟨hready, hnames, halike, program, otherProgram, hprogram, hotherProgram,
    halike.registrations hready hprogram hotherProgram⟩

end RadioBroker.ServiceModel
