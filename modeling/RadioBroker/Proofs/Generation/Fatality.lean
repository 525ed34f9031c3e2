import RadioBroker.Proofs.Generation.Interruption
import RadioBroker.Proofs.ServiceModel.Reports

/-!
# Fatal problems

A marked type without the base interface is the one fatal problem. It ends a generation before any
unit is handed out, and it hides nothing: what is reported of any type is the same whether there are
fatal problems or not.
-/

namespace RadioBroker

open ServiceModel

variable {declarations : List Declaration} {graph : TypeGraph}

/-- A type extends the base interface if that interface, without arguments and marks, is among its
interfaces. -/
theorem TypeGraph.extendsBase_iff {id : TypeId} :
    graph.extendsBase id = true ↔ TypeExpr.named baseInterfaceName ∈ graph.allInterfaces id := by
  simp only [extendsBase, List.any_eq_true, TypeExpr.isDefinition_eq_true_iff]
  constructor
  · rintro ⟨⟨head, arguments, suffix⟩, hmem, rfl, harity, rfl⟩
    cases List.eq_nil_of_length_eq_zero harity
    exact hmem
  · exact fun hmem => ⟨_, hmem, rfl, rfl, rfl⟩

/-- A preparation is aborted exactly if a marked type does not extend the base interface. -/
theorem ServiceModel.outcome_prepare_eq_aborted_iff (graph : TypeGraph) :
    ((ofGraph graph).prepare .empty).outcome = .aborted ↔
      ∃ id, (graph.marker? id).isSome = true ∧
        TypeExpr.named baseInterfaceName ∉ graph.allInterfaces id := by
  have hnot : ((ofGraph graph).prepare .empty).outcome = .aborted ↔
      ¬ ((ofGraph graph).prepare .empty).outcome = .ready := by
    cases ((ofGraph graph).prepare .empty).outcome <;> simp
  rw [hnot, outcome_prepare_eq_ready_iff]
  simp only [not_forall, exists_prop, TypeGraph.extendsBase_iff, TypeGraph.serviceBound?,
    Option.isSome_map]

/-- A generation whose preparation is aborted asks whether it is cancelled, and does nothing else
before it reports. -/
theorem Channel.generate_of_aborted {m : Type → Type} [Monad m] (channel : Channel m)
    (hbuild : TypeGraph.build declarations = .ok graph)
    (haborted : ((ofGraph graph).prepare .empty).outcome = .aborted) (settings : Settings) :
    channel.generate settings declarations = (do
      if ← channel.cancelled then pure (.failed .cancelled)
      else pure ⟨((ofGraph graph).prepare .empty).delivered,
        .ok ⟨settings.mergeDeclarations declarations, true, 0⟩⟩) := by
  unfold generate generateWith
  simp only [hbuild, haborted]

/-- An aborted generation that is not cancelled before it starts hands out nothing. -/
theorem Interruption.generate_of_aborted {interruption : Interruption}
    (hbuild : TypeGraph.build declarations = .ok graph)
    (haborted : ((ofGraph graph).prepare .empty).outcome = .aborted) (settings : Settings)
    (hopen : interruption.isCancelled 0 = false) :
    interruption.generate settings declarations =
      (⟨((ofGraph graph).prepare .empty).delivered,
        .ok ⟨settings.mergeDeclarations declarations, true, 0⟩⟩, ⟨[], []⟩) := by
  have hasked : interruption.channel.cancelled.run {} = (false, {}) := by
    rw [← hopen]
    rfl
  rw [generate, Channel.generate_of_aborted _ hbuild haborted, StateT.run_bind, hasked]
  rfl

/-- A preparation is aborted exactly if a marked type does not extend the base interface. A
generation that is not cancelled before then hands out nothing and says so. Whether aborted or not,
what is reported is the union of what is reported of each type alone. -/
theorem fatal_aborts_and_hides_nothing (hbuild : TypeGraph.build declarations = .ok graph) :
    let prepared := (ofGraph graph).prepare .empty
    (prepared.outcome = .aborted ↔ ∃ id, (graph.marker? id).isSome = true ∧
      TypeExpr.named baseInterfaceName ∉ graph.allInterfaces id) ∧
    (prepared.outcome = .aborted → ∀ (interruption : Interruption) (settings : Settings),
      interruption.isCancelled 0 = false →
      interruption.generate settings declarations =
        (⟨prepared.delivered, .ok ⟨settings.mergeDeclarations declarations, true, 0⟩⟩, ⟨[], []⟩)) ∧
    ∀ diagnostic, diagnostic ∈ prepared.delivered ↔
      ∃ id < graph.size, diagnostic ∈ reportsAlone graph id := by
  intro prepared
  refine ⟨outcome_prepare_eq_aborted_iff graph, ?_, mem_delivered_iff_exists_reportsAlone graph⟩
  intro haborted interruption settings hopen
  exact Interruption.generate_of_aborted hbuild haborted settings hopen

/-- A service without the base interface in front of one with a method that is not supported. -/
def lostService : List Declaration :=
  [(Declaration.ofPath .interface "N" "Lost").marked,
   { (Declaration.ofPath .interface "N" "Found").marked with
      interfaces := [⟨baseInterfaceName, [], ""⟩]
      methods := [⟨"Count", ⟨"int", [], ""⟩, [], none, {}⟩] }]

/-- The graph of `lostService`. -/
def lostServiceGraph : TypeGraph := ⟨[⟨lostService[0], none, 0⟩, ⟨lostService[1], none, 1⟩]⟩

/-- The first service aborts the generation, and both are reported. -/
theorem fatal_lostService :
    TypeGraph.build lostService = .ok lostServiceGraph ∧
      ((ofGraph lostServiceGraph).prepare .empty).outcome = .aborted ∧
      (({} : Interruption).generate {} lostService).2 = ⟨[], []⟩ ∧
      (∃ location, ⟨.missingRadioService, location⟩ ∈
        ((ofGraph lostServiceGraph).prepare .empty).delivered) ∧
      ∃ location, ⟨.unsupportedReturnType "Count" "N.Found" 0, location⟩ ∈
        ((ofGraph lostServiceGraph).prepare .empty).delivered := by
  have hbuild : TypeGraph.build lostService = .ok lostServiceGraph := by rfl
  obtain ⟨haborts, hends, hreports⟩ := fatal_aborts_and_hides_nothing hbuild
  have hnone : lostServiceGraph.allInterfaces 0 = [] := by decide +kernel
  have haborted := haborts.mpr ⟨0, by rfl, by rw [hnone]; exact List.not_mem_nil⟩
  have hlost : reportsAlone lostServiceGraph 0 = [⟨.missingRadioService, {}⟩] := by decide +kernel
  have hcandidates : lostServiceGraph.candidates 1 =
      [⟨⟨"Count", ⟨"int", [], ""⟩, [], none, {}⟩, "Found", "N.Found", "N.Found", 0⟩] := by
        decide +kernel
  have hbase : lostServiceGraph.extendsBase 1 = true := by decide +kernel
  have hfound : lostServiceGraph.reports 1 =
      [⟨.unsupportedReturnType "Count" "N.Found" 0, {}⟩] := by
    rw [TypeGraph.reports, if_pos hbase, TypeGraph.serviceDiagnostics, TypeGraph.verdicts,
      hcandidates]
    rfl
  refine ⟨hbuild, haborted, by rw [hends haborted {} {} rfl], ⟨{}, ?_⟩, ⟨{}, ?_⟩⟩
  · exact (hreports _).mpr ⟨0, by decide, by rw [hlost]; exact List.mem_cons_self⟩
  · refine (hreports _).mpr ⟨1, by decide, mem_reportsAlone_iff.mpr (Or.inr ⟨by rfl, ?_⟩)⟩
    rw [hfound]
    exact List.mem_cons_self

end RadioBroker
