import RadioBroker.Proofs.Diagnostic.Log
import RadioBroker.Proofs.ServiceModel.Candidates

/-!
# What the check of a type does

Candidates are collected one after another, with reports in between. A collector knows of each
signature the first candidate, which is all that its verdicts depend on, and no verdict aborts the
log. So a collection offers and reports what the verdicts on all candidates say, and it depends on
what was reported before in one point only: whether anything fatal was. The check of a type is one
equation. -/

namespace RadioBroker

/-- Filtering a list is filtering its head and then the rest. -/
theorem filterMap_cons_eq_append {α β : Type} (f : α → Option β) (a : α) (as : List α) :
    (a :: as).filterMap f = (f a).toList ++ as.filterMap f := by
  cases h : f a <;> simp [h]

/-! ## Collecting candidates -/

namespace Candidate

variable {earlier : List Candidate} {candidate first other : Candidate}

/-- Candidates that share a signature with a third one share it with each other. -/
theorem sameSignature_trans (hfirst : first.sameSignature candidate = true)
    (hother : candidate.sameSignature other = true) : first.sameSignature other = true := by
  simp only [sameSignature, Bool.and_eq_true, decide_eq_true_eq] at *
  exact ⟨hfirst.1.trans hother.1, hfirst.2.trans hother.2⟩

/-- Behind a candidate whose signature is known the same forerunners are found as without it. -/
theorem forerunner?_append_of_some (h : forerunner? earlier candidate = some first)
    (other : Candidate) :
    forerunner? (earlier ++ [candidate]) other = forerunner? earlier other := by
  rw [forerunner?, forerunner?, List.find?_append, List.find?_singleton]
  split
  · rename_i hsame
    have hfirst := List.find?_some h
    have hfound : (earlier.find? fun known => known.sameSignature other).isSome = true :=
      List.find?_isSome.mpr ⟨first, List.mem_of_find?_eq_some h, sameSignature_trans hfirst hsame⟩
    exact Option.or_of_isSome hfound
  · exact Option.or_none

end Candidate

namespace Collector

open Candidate (forerunner? judge judgeAll Verdict)

variable {collector : Collector} {log : DiagnosticLog} {earlier candidates : List Candidate}
  {candidate : Candidate}

/-- A collector finds the same forerunners as among all the `earlier` candidates. -/
def Knows (collector : Collector) (earlier : List Candidate) : Prop :=
  ∀ candidate, forerunner? collector.known candidate = forerunner? earlier candidate

/-- A collector judges candidates as they are judged behind all the earlier ones. -/
theorem Knows.judge_eq (h : collector.Knows earlier) (candidate : Candidate) :
    judge collector.known candidate = judge earlier candidate := by
  have hknown := h candidate
  rw [forerunner?, forerunner?] at hknown
  rw [judge, judge, hknown]

/-- Collecting a candidate, one more is known. -/
theorem Knows.collect (h : collector.Knows earlier) (log : DiagnosticLog) (candidate : Candidate) :
    (collector.collect log candidate).1.Knows (earlier ++ [candidate]) := by
  intro other
  have hcandidate := h candidate
  cases hfirst : forerunner? earlier candidate with
  | some first =>
      rw [hfirst, forerunner?] at hcandidate
      rw [Collector.collect, hcandidate, Candidate.forerunner?_append_of_some hfirst]
      exact h other
  | none =>
      rw [hfirst, forerunner?] at hcandidate
      have hknown : (collector.collect log candidate).1.known = collector.known ++ [candidate] := by
        rw [Collector.collect, hcandidate]
        dsimp only
        repeat' split
        all_goals rfl
      have hother := h other
      rw [forerunner?, forerunner?] at hother
      rw [hknown, forerunner?, forerunner?, List.find?_append, List.find?_append, hother]

/-- Collecting a candidate offers and reports what the verdict on it says. -/
theorem collect_eq (h : collector.Knows earlier) (log : DiagnosticLog) (candidate : Candidate) :
    (collector.collect log candidate).1.methods = collector.methods ++
        (if log.isAborted then [] else (judge earlier candidate).method?.toList) ∧
      (collector.collect log candidate).2 =
        log.recordAll (judge earlier candidate).diagnostic?.toList := by
  rw [← h.judge_eq, judge, collect]
  cases collector.known.find? fun other => other.sameSignature candidate with
  | some first => simp [Verdict.method?, Verdict.diagnostic?, DiagnosticLog.recordAll]
  | none =>
      cases candidate.judgeKind with
      | rejected diagnostic => simp [Verdict.method?, Verdict.diagnostic?, DiagnosticLog.recordAll]
      | accepted method =>
          cases haborted : log.isAborted <;>
            simp [Verdict.method?, Verdict.diagnostic?]

/-- Collecting candidates offers and reports what the verdicts on them say. No verdict is fatal, so
whether anything is offered was decided before. -/
theorem collectAll_eq (h : collector.Knows earlier) (log : DiagnosticLog)
    (candidates : List Candidate) :
    (collector.collectAll log candidates).1.methods = collector.methods ++
        (if log.isAborted then [] else (judgeAll earlier candidates).filterMap Verdict.method?) ∧
      (collector.collectAll log candidates).2 =
        log.recordAll ((judgeAll earlier candidates).filterMap Verdict.diagnostic?) := by
  induction candidates generalizing collector log earlier with
  | nil => simp [collectAll, judgeAll]
  | cons candidate candidates ih =>
      obtain ⟨hmethods, hlog⟩ := collect_eq h log candidate
      obtain ⟨hrest, hrestLog⟩ := ih (h.collect log candidate) (collector.collect log candidate).2
      have hquiet : (collector.collect log candidate).2.isAborted = log.isAborted := by
        rw [hlog]
        refine DiagnosticLog.isAborted_recordAll_of_not_fatal fun diagnostic hmem => ?_
        exact Candidate.judge_not_fatal (Option.mem_toList.mp hmem)
      rw [judgeAll, filterMap_cons_eq_append, filterMap_cons_eq_append]
      constructor
      · refine hrest.trans ?_
        rw [hquiet, hmethods, List.append_assoc]
        cases log.isAborted <;> rfl
      · refine hrestLog.trans ?_
        rw [hlog, DiagnosticLog.recordAll_append]

end Collector

/-! ## What is found of a service -/

namespace TypeGraph

variable {graph : TypeGraph} {id : TypeId} {diagnostic : Diagnostic}

/-- What becomes of the candidates for a broker. -/
def verdicts (graph : TypeGraph) (id : TypeId) : List Candidate.Verdict :=
  Candidate.judgeAll [] (graph.candidates id)

/-- All that the check of a service reports. -/
def serviceDiagnostics (graph : TypeGraph) (id : TypeId) : List Diagnostic :=
  graph.parentDiagnostics id ++ (graph.verdicts id).filterMap Candidate.Verdict.diagnostic?

/-- The methods that the broker of a service has to offer. -/
def serviceMethods (graph : TypeGraph) (id : TypeId) : List ServiceMethod :=
  (graph.verdicts id).filterMap Candidate.Verdict.method?

/-- The contract of a service. -/
def contract (graph : TypeGraph) (id : TypeId) : Contract where
  className := ((graph.node? id).map fun node =>
    Naming.brokerClassName node.declaration.name node.declaration.fullName).getD ""
  methods := graph.serviceMethods id

/-- What the check of a service without the base interface reports. -/
def missingBase (graph : TypeGraph) (id : TypeId) : List Diagnostic :=
  (graph.node? id).toList.map fun node => ⟨.missingRadioService, node.declaration.location⟩

/-- What the check of a service reports. -/
def reports (graph : TypeGraph) (id : TypeId) : List Diagnostic :=
  if graph.extendsBase id then graph.serviceDiagnostics id else graph.missingBase id

/-- An enclosing type that is not partial is not fatal. -/
theorem parentDiagnostics_not_fatal (h : diagnostic ∈ graph.parentDiagnostics id) :
    diagnostic.isFatal = false := by
  obtain ⟨ancestor, _, hancestor⟩ := List.mem_filterMap.mp h
  repeat' split at hancestor
  all_goals cases hancestor
  rfl

/-- What the check of a service reports besides a missing base interface is not fatal. -/
theorem serviceDiagnostics_not_fatal (h : diagnostic ∈ graph.serviceDiagnostics id) :
    diagnostic.isFatal = false := by
  rcases List.mem_append.mp h with hparent | hverdict
  · exact parentDiagnostics_not_fatal hparent
  · exact Candidate.judgeAll_not_fatal hverdict

end TypeGraph

/-! ## The check of a type -/

namespace ServiceModel

variable {model : ServiceModel} {log : DiagnosticLog} {id : TypeId}

/-- Collecting the candidates for a broker behind the types around it offers its methods, unless
anything fatal was reported before, and reports all that there is to report. -/
theorem collectAll_candidates (graph : TypeGraph) (log : DiagnosticLog) (id : TypeId) :
    let collected := Collector.collectAll {} (log.recordAll (graph.parentDiagnostics id))
      (graph.candidates id)
    collected.1.methods = (if log.isAborted then [] else graph.serviceMethods id) ∧
      collected.2 = log.recordAll (graph.serviceDiagnostics id) := by
  have hnothing : Collector.Knows {} [] := fun _ => rfl
  obtain ⟨hmethods, hlog⟩ := Collector.collectAll_eq hnothing
    (log.recordAll (graph.parentDiagnostics id)) (graph.candidates id)
  have hquiet : (log.recordAll (graph.parentDiagnostics id)).isAborted = log.isAborted :=
    DiagnosticLog.isAborted_recordAll_of_not_fatal fun _ => TypeGraph.parentDiagnostics_not_fatal
  rw [hquiet] at hmethods
  rw [← DiagnosticLog.recordAll_append] at hlog
  exact ⟨hmethods, hlog⟩

/-- The contracts that the check of a type adds. -/
def addedContracts (model : ServiceModel) (log : DiagnosticLog) (id : TypeId) :
    List (TypeId × Contract) :=
  if model.isService id && model.graph.extendsBase id then
    [(id, { model.graph.contract id with
      methods := if log.isAborted then [] else model.graph.serviceMethods id })]
  else []

/-- A type that has been checked is passed over. -/
theorem check_of_mem (h : id ∈ model.checked) : model.check log id = (model, log) :=
  if_pos h

/-- The check of a type that has not been checked: a service gets its contract, and its reports are
recorded. -/
theorem check_of_notMem (hnew : id ∉ model.checked) :
    model.check log id =
      ({ model with
          checked := model.checked ++ [id]
          contracts := model.contracts ++ model.addedContracts log id },
        log.recordAll (if model.isService id then model.graph.reports id else [])) := by
  obtain ⟨hmethods, hlog⟩ := collectAll_candidates model.graph log id
  have hsame : ({ model with checked := model.checked ++ [id] }).isService id =
      model.isService id := rfl
  unfold check addedContracts
  rw [if_neg hnew]
  cases hnode : model.graph.node? id with
  | none =>
      simp [hnode, TypeGraph.reports, TypeGraph.missingBase, TypeGraph.extendsBase,
        TypeGraph.allInterfaces]
  | some node =>
      by_cases hservice : model.isService id = true
      · by_cases hbase : model.graph.extendsBase id = true
        · simp [hnode, hsame, hservice, hbase, hmethods, hlog, TypeGraph.reports,
            TypeGraph.contract]
        · simp [hnode, hsame, hservice, hbase, TypeGraph.reports, TypeGraph.missingBase,
            DiagnosticLog.recordAll]
      · simp [hnode, hsame, hservice]

/-- A check changes neither the graph nor the services. -/
theorem check_fst_eq (model : ServiceModel) (log : DiagnosticLog) (id : TypeId) :
    (model.check log id).1.graph = model.graph ∧
      (model.check log id).1.services = model.services := by
  by_cases hchecked : id ∈ model.checked
  · rw [check_of_mem hchecked]
    exact ⟨rfl, rfl⟩
  · rw [check_of_notMem hchecked]
    exact ⟨rfl, rfl⟩

/-- Only the type itself is checked by its check. -/
theorem mem_checked_check {other : TypeId} (h : other ∈ (model.check log id).1.checked) :
    other ∈ model.checked ∨ other = id := by
  by_cases hchecked : id ∈ model.checked
  · rw [check_of_mem hchecked] at h
    exact Or.inl h
  · rw [check_of_notMem hchecked] at h
    simpa using h

end ServiceModel

end RadioBroker
