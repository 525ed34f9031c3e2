import RadioBroker.Proofs.ServiceModel.Candidates
import RadioBroker.Proofs.ServiceModel.Instances
import RadioBroker.Proofs.TypeGraph.Renaming

/-!
# Candidates with other names for parameters

After a renaming of parameters the candidates for a broker are the same methods in the same order,
and the same ones are offered or reported: types are written alike exactly if they were before, and
return types keep their kind. Only the names in the reports change.
-/

namespace RadioBroker

/-- What is kept of a method to offer, whatever parameters are called. -/
def ServiceMethod.nameAndKind (method : ServiceMethod) : String × DispatchKind :=
  (method.name, method.kind)

/-! ## Reports after the renaming -/

/-- The full names of types that a problem mentions. -/
def Problem.typeNames : Problem → List String
  | .notPartialParent parent => [parent]
  | .missingRadioService => []
  | .unsupportedReturnType _ definition _ => [definition]
  | .duplicateInheritedMethod _ first second => [first, second]
  | .invalidMaxLinks _ => []

namespace ParameterRenaming

/-- A problem after the renaming. -/
def problem (r : ParameterRenaming) : Problem → Problem
  | .notPartialParent parent => .notPartialParent (r.fullName parent)
  | .missingRadioService => .missingRadioService
  | .unsupportedReturnType method definition slot =>
    .unsupportedReturnType method (r.fullName definition) slot
  | .duplicateInheritedMethod method first second =>
    .duplicateInheritedMethod method (r.fullName first) (r.fullName second)
  | .invalidMaxLinks found => .invalidMaxLinks found

/-- A report after the renaming. -/
def diagnostic (r : ParameterRenaming) (diagnostic : Diagnostic) : Diagnostic :=
  ⟨r.problem diagnostic.problem, diagnostic.location⟩

/-- The new name is not taken in a report. -/
def UntakenIn (r : ParameterRenaming) (diagnostic : Diagnostic) : Prop :=
  ∀ name ∈ diagnostic.problem.typeNames, r.Untaken name

variable {r : ParameterRenaming}

/-- A report keeps its number. -/
@[simp] theorem code_diagnostic (r : ParameterRenaming) (diagnostic : Diagnostic) :
    (r.diagnostic diagnostic).problem.code = diagnostic.problem.code := by
  obtain ⟨problem, location⟩ := diagnostic
  cases problem <;> rfl

/-- Different reports stay different. -/
theorem diagnostic_injective {first second : Diagnostic} (hfirst : r.UntakenIn first)
    (hsecond : r.UntakenIn second) (h : r.diagnostic first = r.diagnostic second) :
    first = second := by
  obtain ⟨problem, location⟩ := first
  obtain ⟨other, place⟩ := second
  obtain ⟨hproblem, rfl⟩ := Diagnostic.mk.inj h
  cases problem <;> cases other <;>
    simp_all [ParameterRenaming.problem, UntakenIn, Problem.typeNames, fullName_inj]

/-! ## Candidates after the renaming -/

open TypeGraph

/-- A candidate for the broker of a type, before and after the renaming. -/
structure RenamedCandidate (r : ParameterRenaming) (declaration : Declaration)
    (candidate renamed : Candidate) : Prop where
  name : renamed.method.name = candidate.method.name
  kind : renamed.method.returnType.classify.kind = candidate.method.returnType.classify.kind
  parameters : renamed.method.parameters =
    candidate.method.parameters.map (r.typeIn declaration)
  location : renamed.method.location = candidate.method.location
  declaring : renamed.declaring = r.fullName candidate.declaring
  definition : renamed.definition = r.fullName candidate.definition
  slot : renamed.slot = candidate.slot
  renamable : ∀ t ∈ candidate.method.parameters, t.Renamable r.parameters r.rename
  declaring_untaken : r.Untaken candidate.declaring
  definition_untaken : r.Untaken candidate.definition

variable {given : List Declaration} {built : TypeGraph} {id : TypeId} {node base : TypeNode}
  {declaration : Declaration} {t : TypeExpr}

/-- A method is listed where it is declared after the renaming exactly if it was before. -/
theorem Fresh.owns_method (h : r.Fresh declaration) {method : Method}
    (hmethod : method ∈ declaration.methods) :
    (r.declaration declaration).owns (r.method declaration method) = declaration.owns method := by
  refine decide_eq_decide.mpr ?_
  show (method.declaredIn.map r.fullName).getD (r.fullName declaration.fullName) =
    r.fullName declaration.fullName ↔ _
  cases hdeclaredIn : method.declaredIn with
  | none => simp
  | some name => exact fullName_inj (h.declaredIn_untaken method hmethod name hdeclaredIn) h.untaken

namespace ConsistentIn

/-- A return type keeps its dispatch kind. -/
theorem kind_typeIn (h : r.ConsistentIn given built) (ht : t.Renamable r.parameters r.rename) :
    (r.typeIn declaration t).classify.kind = t.classify.kind := by
  unfold typeIn
  split
  · exact TypeExpr.kind_classify_renamed h.newNames h.unknown ht.unused
  · rfl

/-- Types are written alike after the renaming exactly if they were before. -/
theorem display_typeIn_inj (h : r.ConsistentIn given built) {s t : TypeExpr}
    (hs : s.Renamable r.parameters r.rename) (ht : t.Renamable r.parameters r.rename) :
    (r.typeIn declaration s).display = (r.typeIn declaration t).display ↔
    s.display = t.display := by
  unfold typeIn
  split
  · exact hs.display_renamed_inj h.newNames ht
  · rfl

/-- The new name is not taken in the graph. -/
theorem untaken_fullName (h : r.ConsistentIn given built) (hid : id < built.size) :
    r.Untaken (built.fullName id) := by
  obtain ⟨node, hnode⟩ := exists_node_iff.mpr hid
  rw [fullName_of_node hnode]
  exact (h.fresh_of_node (List.mem_of_getElem? hnode)).untaken

/-- The methods that a type declares itself, before and after the renaming. The broker may be that
of another type, if what the methods take is changed alike for both. -/
theorem declaredCandidates_graph (h : r.ConsistentIn given built) (hbase : base ∈ built.nodes)
    (hparameters : ∀ method ∈ base.declaration.methods, ∀ t ∈ method.parameters,
      r.typeIn base.declaration t = r.typeIn declaration t) (interface renamed : String) :
    List.Forall₂ (r.RenamedCandidate declaration) (built.declaredCandidates base interface)
      ((r.graph built).declaredCandidates (r.node base) renamed) := by
  have hfresh := h.fresh_of_node hbase
  obtain ⟨id, hnode⟩ := List.mem_iff_getElem?.mp hbase
  have hdefinition : base.definition < built.size := by
    have hlt := h.wellFormed.definition_lt (exists_node_iff.mp ⟨base, hnode⟩)
    rwa [TypeGraph.definitionOf, show built.node? id = some base from hnode] at hlt
  have hentries :
      List.Forall₂ (fun entry image => image = (r.method base.declaration entry.1, entry.2) ∧
        entry.1 ∈ base.declaration.methods)
      base.declaration.methods.zipIdx
      (base.declaration.methods.map (r.method base.declaration)).zipIdx := by
    rw [List.zipIdx_map, List.forall₂_map_right_iff, List.forall₂_same]
    exact fun entry hentry => ⟨rfl, List.fst_mem_of_mem_zipIdx hentry⟩
  refine List.rel_filterMap ?_ hentries
  rintro ⟨method, slot⟩ _ ⟨rfl, hmethod⟩
  have hmem : ∀ t ∈ method.returnType :: method.parameters,
      t.Renamable r.parameters r.rename := fun t ht =>
    hfresh.types t (List.mem_append_right _ (List.mem_flatMap.mpr ⟨method, hmethod, ht⟩))
  show Option.Rel _ (if base.declaration.owns method = true then _ else none)
    (if (r.declaration base.declaration).owns (r.method base.declaration method) = true
      then _ else none)
  rw [hfresh.owns_method hmethod]
  split
  · refine .some ?_
    constructor
    case name => rfl
    case kind => exact h.kind_typeIn (hmem _ List.mem_cons_self)
    case parameters => exact List.map_congr_left (hparameters method hmethod)
    case location => rfl
    case declaring => rfl
    case definition => exact fullName_graph r hdefinition
    case slot => rfl
    case renamable => exact fun t ht => hmem t (List.mem_cons_of_mem _ ht)
    case declaring_untaken => exact hfresh.untaken
    case definition_untaken => exact h.untaken_fullName hdefinition
  · exact .none

/-- The methods that an interface declares, before and after the renaming. -/
theorem inheritedCandidates_graph (h : r.ConsistentIn given built)
    (ht : t.Renamable r.parameters r.rename) (hapart : r.BaseApart built declaration t) :
    List.Forall₂ (r.RenamedCandidate declaration) (built.inheritedCandidates t)
      ((r.graph built).inheritedCandidates (r.typeIn declaration t)) := by
  rw [inheritedCandidates, inheritedCandidates, h.declared?_graph ht hapart]
  cases hbase : built.declared? t.display with
  | none => exact .nil
  | some base =>
      refine h.declaredCandidates_graph (List.mem_of_find?_eq_some hbase) ?_ _ _
      intro method hmethod s hs
      have hmem : s ∈ base.declaration.methods.flatMap Method.parameters :=
        List.mem_flatMap.mpr ⟨method, hmethod, hs⟩
      exact (typeIn_of_declared hapart hbase s).trans
        (hapart.kept base hbase s (List.mem_append_right _ hmem)).symm

/-- The candidates for a broker, before and after the renaming. -/
theorem candidates_graph (h : r.ConsistentIn given built) (hnode : built.node? id = some node)
    (hapart : ∀ t ∈ built.allInterfaces id, r.BaseApart built node.declaration t) :
    List.Forall₂ (r.RenamedCandidate node.declaration) (built.candidates id)
      ((r.graph built).candidates id) := by
  rw [candidates, candidates, node?_graph, hnode, h.allInterfaces_graph hnode hapart]
  refine List.rel_append
    (h.declaredCandidates_graph (List.mem_of_getElem? hnode) (fun _ _ _ _ => rfl) _ _) ?_
  rw [List.flatMap_map]
  refine List.rel_flatten ?_
  rw [List.forall₂_map_left_iff, List.forall₂_map_right_iff, List.forall₂_same]
  exact fun t ht => h.inheritedCandidates_graph
    (h.renamable_of_mentioned (cases_of_mem_allInterfaces hnode ht).1) (hapart t ht)

/-! ## Verdicts after the renaming -/

variable {candidate image first firstImage : Candidate} {earlier candidates images : List Candidate}

/-- Parameters are written alike after the renaming exactly if they were before. -/
theorem map_display_typeIn_inj (h : r.ConsistentIn given built) {ss ts : List TypeExpr}
    (hss : ∀ s ∈ ss, s.Renamable r.parameters r.rename)
    (hts : ∀ t ∈ ts, t.Renamable r.parameters r.rename) :
    (ss.map (r.typeIn declaration)).map TypeExpr.display =
        (ts.map (r.typeIn declaration)).map TypeExpr.display ↔
      ss.map TypeExpr.display = ts.map TypeExpr.display := by
  induction ss generalizing ts with
  | nil => cases ts <;> simp
  | cons s ss ih =>
      cases ts with
      | nil => simp
      | cons t ts =>
          obtain ⟨hs, hss⟩ := List.forall_mem_cons.mp hss
          obtain ⟨ht, hts⟩ := List.forall_mem_cons.mp hts
          simp only [List.map_cons, List.cons.injEq, h.display_typeIn_inj hs ht, ih hss hts]

/-- Candidates have one signature after the renaming exactly if they had one before. -/
theorem sameSignature_eq (h : r.ConsistentIn given built)
    (hfirst : r.RenamedCandidate declaration first firstImage)
    (hcandidate : r.RenamedCandidate declaration candidate image) :
    firstImage.sameSignature image = first.sameSignature candidate := by
  rw [Candidate.sameSignature, Candidate.sameSignature, hfirst.name, hcandidate.name,
    hfirst.parameters, hcandidate.parameters]
  congr 1
  exact decide_eq_decide.mpr (h.map_display_typeIn_inj hfirst.renamable hcandidate.renamable)

/-- The first candidate of a signature stays the first one. -/
theorem forerunner?_rel (h : r.ConsistentIn given built) {earlierImages : List Candidate}
    (hearlier : List.Forall₂ (r.RenamedCandidate declaration) earlier earlierImages)
    (hcandidate : r.RenamedCandidate declaration candidate image) :
    Option.Rel (r.RenamedCandidate declaration) (Candidate.forerunner? earlier candidate)
      (Candidate.forerunner? earlierImages image) := by
  unfold Candidate.forerunner?
  induction hearlier with
  | nil => exact .none
  | cons hfirst _ ih =>
      rw [List.find?_cons, List.find?_cons, h.sameSignature_eq hfirst hcandidate]
      split
      · exact .some hfirst
      · exact ih

end ConsistentIn

/-- A verdict before and after the renaming. -/
inductive RenamedVerdict (r : ParameterRenaming) :
    Candidate.Verdict → Candidate.Verdict → Prop
  | accepted {method image : ServiceMethod} (name : image.name = method.name)
      (kind : image.kind = method.kind) : RenamedVerdict r (.accepted method) (.accepted image)
  | rejected {diagnostic : Diagnostic} (untaken : r.UntakenIn diagnostic) :
      RenamedVerdict r (.rejected diagnostic) (.rejected (r.diagnostic diagnostic))

namespace ConsistentIn

variable {candidate image : Candidate} {earlier earlierImages candidates images : List Candidate}

/-- The verdict on a candidate, before and after the renaming. -/
theorem judge_rel (h : r.ConsistentIn given built)
    (hearlier : List.Forall₂ (r.RenamedCandidate declaration) earlier earlierImages)
    (hcandidate : r.RenamedCandidate declaration candidate image) :
    r.RenamedVerdict (Candidate.judge earlier candidate) (Candidate.judge earlierImages image) := by
  have hfirst := h.forerunner?_rel hearlier hcandidate
  cases hbefore : Candidate.forerunner? earlier candidate <;>
    cases hafter : Candidate.forerunner? earlierImages image <;>
    rw [hbefore, hafter] at hfirst <;> cases hfirst
  case none.none =>
    by_cases hkind : candidate.Supported
    · have hkindImage : image.Supported := fun hother => hkind (hcandidate.kind.symm.trans hother)
      rw [Candidate.judge_of_supported hbefore hkind,
        Candidate.judge_of_supported hafter hkindImage]
      exact .accepted hcandidate.name hcandidate.kind
    · have hkindImage : ¬ image.Supported := fun hother =>
        hkind fun hnone => hother (hcandidate.kind.trans hnone)
      rw [Candidate.judge_of_unsupported hbefore hkind,
        Candidate.judge_of_unsupported hafter hkindImage]
      have hreport :
          image.unsupportedDiagnostic = r.diagnostic candidate.unsupportedDiagnostic := by
        simp [Candidate.unsupportedDiagnostic, ParameterRenaming.diagnostic,
          ParameterRenaming.problem, hcandidate.name, hcandidate.definition, hcandidate.slot,
          hcandidate.location]
      rw [hreport]
      exact .rejected (List.forall_mem_singleton.mpr hcandidate.definition_untaken)
  case some.some first firstImage hsame =>
    rw [Candidate.judge_of_some hbefore, Candidate.judge_of_some hafter]
    have hreport : Candidate.duplicateDiagnostic firstImage image =
        r.diagnostic (Candidate.duplicateDiagnostic first candidate) := by
      simp [Candidate.duplicateDiagnostic, ParameterRenaming.diagnostic,
        ParameterRenaming.problem, hcandidate.name, hsame.declaring, hcandidate.declaring,
        hcandidate.location]
    rw [hreport]
    exact .rejected (List.forall_mem_cons.mpr ⟨hsame.declaring_untaken,
      List.forall_mem_singleton.mpr hcandidate.declaring_untaken⟩)

/-- The verdicts on candidates, before and after the renaming. -/
theorem judgeAll_rel (h : r.ConsistentIn given built)
    (hearlier : List.Forall₂ (r.RenamedCandidate declaration) earlier earlierImages)
    (hcandidates : List.Forall₂ (r.RenamedCandidate declaration) candidates images) :
    List.Forall₂ r.RenamedVerdict (Candidate.judgeAll earlier candidates)
      (Candidate.judgeAll earlierImages images) := by
  induction hcandidates generalizing earlier earlierImages with
  | nil => exact .nil
  | cons hcandidate _ ih =>
      exact .cons (h.judge_rel hearlier hcandidate)
        (ih (List.rel_append hearlier (.cons hcandidate .nil)))

end ConsistentIn

variable {verdicts images : List Candidate.Verdict}

/-- Methods of the same names and kinds are offered. -/
theorem map_nameAndKind_eq (h : List.Forall₂ r.RenamedVerdict verdicts images) :
    (images.filterMap Candidate.Verdict.method?).map ServiceMethod.nameAndKind =
      (verdicts.filterMap Candidate.Verdict.method?).map ServiceMethod.nameAndKind := by
  induction h with
  | nil => rfl
  | cons hverdict _ ih =>
      rw [filterMap_cons_eq_append, filterMap_cons_eq_append, List.map_append, List.map_append, ih]
      cases hverdict with
      | accepted hname hkind =>
          exact congrArg (· :: _) (Prod.ext hname hkind)
      | rejected _ => rfl

/-- Reports before and after the renaming. -/
structure RenamedReports (r : ParameterRenaming) (reports images : List Diagnostic) : Prop where
  eq_map : images = reports.map r.diagnostic
  untaken : ∀ diagnostic ∈ reports, r.UntakenIn diagnostic

/-- Nothing is reported. -/
theorem RenamedReports.nil : r.RenamedReports [] [] := ⟨rfl, nofun⟩

/-- What is reported in turn. -/
theorem RenamedReports.append {reports images more moreImages : List Diagnostic}
    (h : r.RenamedReports reports images) (hmore : r.RenamedReports more moreImages) :
    r.RenamedReports (reports ++ more) (images ++ moreImages) where
  eq_map := by rw [h.eq_map, hmore.eq_map, List.map_append]
  untaken := List.forall_mem_append.mpr ⟨h.untaken, hmore.untaken⟩

/-- What is reported of the candidates. -/
theorem renamedReports_of_verdicts (h : List.Forall₂ r.RenamedVerdict verdicts images) :
    r.RenamedReports (verdicts.filterMap Candidate.Verdict.diagnostic?)
      (images.filterMap Candidate.Verdict.diagnostic?) := by
  induction h with
  | nil => exact .nil
  | cons hverdict _ ih =>
      rw [filterMap_cons_eq_append, filterMap_cons_eq_append]
      cases hverdict with
      | accepted _ _ => exact ih
      | rejected huntaken => exact .append ⟨rfl, List.forall_mem_singleton.mpr huntaken⟩ ih

end ParameterRenaming

end RadioBroker
