import Mathlib.Data.Finset.Card
import RadioBroker.Declaration.Builder
import RadioBroker.Proofs.ServiceModel.Reports

/-!
# Problems that share reports

A preparation reports as many problems of a kind as there are different reports of it. Reports of
missing bases, of markers and of duplicates do not say which type or method they concern: different
problems whose reports agree, in what they say and in their place, are reported as one.
-/

namespace RadioBroker

/-- The reports that bear a number. -/
def reportedAs (diagnostics : List Diagnostic) (code : String) : List Diagnostic :=
  diagnostics.filter fun diagnostic => diagnostic.problem.code = code

/-! ## Counting reports -/

/-- What is reported of several problems, each of which concerns a subject. -/
structure Counted {α β : Type} [DecidableEq β] (diagnostics : List Diagnostic) (problems : List α)
    (report : α → Diagnostic) (subject : α → β) : Prop where
  /-- No report stands there twice. -/
  nodup : diagnostics.Nodup
  /-- All problems are reported, and nothing else is. -/
  mem_iff :
    ∀ diagnostic, diagnostic ∈ diagnostics ↔ ∃ problem ∈ problems, report problem = diagnostic
  /-- There are as many reports as the problems have different ones. -/
  length_eq : diagnostics.length = (problems.map report).toFinset.card
  /-- There are at least as many as there are subjects, if no two subjects share a report. -/
  le_length : (∀ problem ∈ problems, ∀ other ∈ problems, report problem = report other →
      subject problem = subject other) →
    (problems.map subject).toFinset.card ≤ diagnostics.length

/-- Where keys tell values apart there are at least as many keys as values. -/
theorem card_map_le_card_map {α β γ : Type} [DecidableEq β] [DecidableEq γ] {as : List α}
    {key : α → γ} {value : α → β} (h : ∀ a ∈ as, ∀ b ∈ as, key a = key b → value a = value b) :
    (as.map value).toFinset.card ≤ (as.map key).toFinset.card := by
  -- The value is read off the first element with the key.
  let read : γ → Option β := fun k => (as.find? fun a => key a = k).map value
  have hread : ∀ a ∈ as, read (key a) = some (value a) := by
    intro a ha
    cases hfound : as.find? fun b => key b = key a with
    | none => simpa using List.find?_eq_none.mp hfound a ha
    | some b =>
        have hkey : key b = key a :=
          of_decide_eq_true (List.find?_some (p := fun b => key b = key a) hfound)
        have hvalue := h b (List.mem_of_find?_eq_some hfound) a ha hkey
        simp [read, hfound, hvalue]
  have hsubset : (as.map value).toFinset.image some ⊆ (as.map key).toFinset.image read := by
    intro found hmem
    simp only [Finset.mem_image, List.mem_toFinset, List.mem_map, exists_exists_and_eq_and]
      at hmem ⊢
    obtain ⟨a, ha, rfl⟩ := hmem
    exact ⟨a, ha, hread a ha⟩
  calc (as.map value).toFinset.card
      = ((as.map value).toFinset.image some).card :=
        (Finset.card_image_of_injective _ (Option.some_injective β)).symm
    _ ≤ ((as.map key).toFinset.image read).card := Finset.card_le_card hsubset
    _ ≤ (as.map key).toFinset.card := Finset.card_image_le

/-- Reports without repetition are counted by the problems that they are reports of. -/
theorem Counted.of_mem_iff {α β : Type} [DecidableEq β] {diagnostics : List Diagnostic}
    {problems : List α} {report : α → Diagnostic} {subject : α → β} (hnodup : diagnostics.Nodup)
    (hmem : ∀ diagnostic, diagnostic ∈ diagnostics ↔
      ∃ problem ∈ problems, report problem = diagnostic) :
    Counted diagnostics problems report subject := by
  have hreports : diagnostics.toFinset = (problems.map report).toFinset := by
    ext diagnostic
    rw [List.mem_toFinset, List.mem_toFinset, List.mem_map, hmem]
  have hlength : diagnostics.length = (problems.map report).toFinset.card := by
    rw [← hreports, List.toFinset_card_of_nodup hnodup]
  exact ⟨hnodup, hmem, hlength, fun htold => hlength ▸ card_map_le_card_map htold⟩

/-! ## Problems of a kind -/

namespace Candidate

/-- The candidates that an earlier one of the same signature keeps out, each behind the first of its
signature. -/
def duplicates (candidates : List Candidate) : List (Candidate × Candidate) :=
  candidates.zipIdx.filterMap fun entry =>
    (forerunner? (candidates.take entry.2) entry.1).map fun first => (first, entry.1)

theorem mem_duplicates_iff {candidates : List Candidate} {pair : Candidate × Candidate} :
    pair ∈ duplicates candidates ↔ ∃ position : Nat, candidates[position]? = some pair.2 ∧
      forerunner? (candidates.take position) pair.2 = some pair.1 := by
  simp only [duplicates, List.mem_filterMap, Option.map_eq_some_iff, Prod.exists,
    List.mem_zipIdx_iff_getElem?]
  constructor
  · rintro ⟨candidate, position, hcandidate, first, hfirst, rfl⟩
    exact ⟨position, hcandidate, hfirst⟩
  · rintro ⟨position, hcandidate, hfirst⟩
    exact ⟨pair.2, position, hcandidate, pair.1, hfirst, rfl⟩

end Candidate

namespace TypeGraph

variable {graph : TypeGraph} {id : TypeId} {diagnostic : Diagnostic}

/-- The marked types that do not extend the base interface. -/
def lackingBase (graph : TypeGraph) : List TypeId := graph.ids.filter fun id => graph.LacksBase id

/-- The marker that a type carries itself. -/
def ownMarker? (graph : TypeGraph) (id : TypeId) : Option Attribute :=
  (graph.node? id).bind fun node => node.declaration.attribute? markerName

/-- What is reported of the marker that a type carries itself. -/
def ownMarkerDiagnostic? (graph : TypeGraph) (id : TypeId) : Option Diagnostic :=
  (graph.ownMarker? id).bind fun mark =>
    match mark.linkBound with
    | .ok _ => none
    | .error problem => some ⟨problem, mark.location⟩

/-- The types with a marker of their own that sets a bound which is none, each with its report. -/
def invalidMarkers (graph : TypeGraph) : List (TypeId × Diagnostic) :=
  graph.ids.filterMap fun id =>
    (graph.ownMarkerDiagnostic? id).map fun diagnostic => (id, diagnostic)

/-- The candidates of checked types that earlier ones keep out, each behind the first of its
signature. -/
def duplicates (graph : TypeGraph) : List (Candidate × Candidate) :=
  (graph.ids.filter fun id => graph.Checked id).flatMap fun id =>
    Candidate.duplicates (graph.candidates id)

/-- A marker of its own governs a type. -/
theorem marker?_of_ownMarker? {mark : Attribute} (h : graph.ownMarker? id = some mark) :
    graph.marker? id = some mark := by
  obtain ⟨node, hnode, hmark⟩ := Option.bind_eq_some_iff.mp h
  simp [marker?, hnode, hmark]

/-- The marker that governs a type is carried by a type. -/
theorem exists_ownMarker? {mark : Attribute} (h : graph.marker? id = some mark) :
    ∃ source, graph.ownMarker? source = some mark := by
  obtain ⟨node, hnode, hmark⟩ := Option.bind_eq_some_iff.mp h
  split at hmark
  · rename_i own hown
    cases hmark
    exact ⟨id, Option.bind_eq_some_iff.mpr ⟨node, hnode, hown⟩⟩
  · split at hmark
    · obtain ⟨definition, hdefinition, hown⟩ := Option.bind_eq_some_iff.mp hmark
      exact ⟨node.definition, Option.bind_eq_some_iff.mpr ⟨definition, hdefinition, hown⟩⟩
    · cases hmark

/-- What is reported of markers is reported of types that carry them. -/
theorem mem_invalidMarkers_iff :
    (∃ id, graph.markerDiagnostic? id = some diagnostic) ↔
      ∃ problem ∈ graph.invalidMarkers, problem.2 = diagnostic := by
  have hproblem : (∃ problem ∈ graph.invalidMarkers, problem.2 = diagnostic) ↔
      ∃ id, graph.ownMarkerDiagnostic? id = some diagnostic := by
    simp only [invalidMarkers, List.mem_filterMap, Option.map_eq_some_iff]
    constructor
    · rintro ⟨_, ⟨id, _, _, hreport, rfl⟩, rfl⟩
      exact ⟨id, hreport⟩
    · rintro ⟨id, hreport⟩
      refine ⟨(id, diagnostic), ⟨id, ?_, diagnostic, hreport, rfl⟩, rfl⟩
      obtain ⟨mark, hmark, _⟩ := Option.bind_eq_some_iff.mp hreport
      obtain ⟨node, hnode, _⟩ := Option.bind_eq_some_iff.mp hmark
      exact mem_ids.mpr (exists_node_iff.mp ⟨node, hnode⟩)
  rw [hproblem]
  constructor
  · rintro ⟨id, hreport⟩
    obtain ⟨mark, hmark, hbound⟩ := Option.bind_eq_some_iff.mp hreport
    obtain ⟨source, hsource⟩ := exists_ownMarker? hmark
    exact ⟨source, Option.bind_eq_some_iff.mpr ⟨mark, hsource, hbound⟩⟩
  · rintro ⟨id, hreport⟩
    obtain ⟨mark, hmark, hbound⟩ := Option.bind_eq_some_iff.mp hreport
    exact ⟨id, Option.bind_eq_some_iff.mpr ⟨mark, marker?_of_ownMarker? hmark, hbound⟩⟩

theorem mem_duplicates_iff {pair : Candidate × Candidate} : pair ∈ graph.duplicates ↔
    ∃ id, graph.Checked id ∧ ∃ position : Nat, (graph.candidates id)[position]? = some pair.2 ∧
      Candidate.forerunner? ((graph.candidates id).take position) pair.2 = some pair.1 := by
  simp only [duplicates, List.mem_flatMap, List.mem_filter, decide_eq_true_eq,
    Candidate.mem_duplicates_iff]
  constructor
  · rintro ⟨id, ⟨_, hchecked⟩, hpair⟩
    exact ⟨id, hchecked, hpair⟩
  · rintro ⟨id, hchecked, hpair⟩
    exact ⟨id, ⟨mem_ids.mpr (lt_of_serviceBound? hchecked.1), hchecked⟩, hpair⟩

/-- A type that is not partial encloses a checked one. -/
def Blocks (graph : TypeGraph) (outer : TypeId) : Prop :=
  outer < graph.size ∧ ¬ graph.IsPartial outer ∧
    ∃ id, graph.Checked id ∧ outer ∈ graph.ancestors id

/-- A candidate of a checked type is the first of its signature, and its return type has no dispatch
kind. -/
def Unsupported (graph : TypeGraph) (candidate : Candidate) : Prop :=
  ∃ id, graph.Checked id ∧ ∃ position : Nat, (graph.candidates id)[position]? = some candidate ∧
    Candidate.forerunner? ((graph.candidates id).take position) candidate = none ∧
    ¬ candidate.Supported

/-- The reports under each number. -/
theorem reported_and_code_iff {code : String} :
    graph.Reported diagnostic ∧ diagnostic.problem.code = code ↔
      (code = "CCG001" ∧ ∃ outer, graph.Blocks outer ∧
        graph.notPartialDiagnostic outer = diagnostic) ∨
      (code = "CCG002" ∧ ∃ id ∈ graph.lackingBase,
        ⟨.missingRadioService, graph.locationOf id⟩ = diagnostic) ∨
      (code = "CCG003" ∧ ∃ candidate, graph.Unsupported candidate ∧
        candidate.unsupportedDiagnostic = diagnostic) ∨
      (code = "CCG004" ∧ ∃ pair ∈ graph.duplicates,
        Candidate.duplicateDiagnostic pair.1 pair.2 = diagnostic) ∨
      (code = "CCG005" ∧ ∃ problem ∈ graph.invalidMarkers, problem.2 = diagnostic) := by
  have hlacking : ∀ id, id ∈ graph.lackingBase ↔ graph.LacksBase id := by
    intro id
    simp only [lackingBase, List.mem_filter, decide_eq_true_eq]
    exact and_iff_right_of_imp fun hlacks => mem_ids.mpr (lt_of_serviceBound? hlacks.1)
  simp only [hlacking, ← mem_invalidMarkers_iff, mem_duplicates_iff]
  constructor
  · rintro ⟨hreported, rfl⟩
    cases hreported with
    | parent hchecked houter hlt hpartial =>
        exact Or.inl ⟨rfl, _, ⟨hlt, hpartial, _, hchecked, houter⟩, rfl⟩
    | missingBase hlacks => exact Or.inr (Or.inl ⟨rfl, _, hlacks, rfl⟩)
    | unsupported hchecked hcandidate hfirst hkind =>
        exact Or.inr (Or.inr (Or.inl
          ⟨rfl, _, ⟨_, hchecked, _, hcandidate, hfirst, hkind⟩, rfl⟩))
    | duplicate hchecked hcandidate hfirst =>
        exact Or.inr (Or.inr (Or.inr (Or.inl
          ⟨rfl, (_, _), ⟨_, hchecked, _, hcandidate, hfirst⟩, rfl⟩)))
    | marker hmarker =>
        have hid := hmarker
        obtain ⟨_, _, rfl⟩ := exists_of_markerDiagnostic? hmarker
        exact Or.inr (Or.inr (Or.inr (Or.inr ⟨rfl, _, hid⟩)))
  · rintro (⟨rfl, outer, ⟨hlt, hpartial, id, hchecked, houter⟩, rfl⟩ | ⟨rfl, id, hlacks, rfl⟩ |
      ⟨rfl, candidate, ⟨id, hchecked, position, hcandidate, hfirst, hkind⟩, rfl⟩ |
      ⟨rfl, pair, ⟨id, hchecked, position, hcandidate, hfirst⟩, rfl⟩ | ⟨rfl, id, hmarker⟩)
    · exact ⟨.parent hchecked houter hlt hpartial, rfl⟩
    · exact ⟨.missingBase hlacks, rfl⟩
    · exact ⟨.unsupported hchecked hcandidate hfirst hkind, rfl⟩
    · exact ⟨.duplicate hchecked hcandidate hfirst, rfl⟩
    · have hreported := Reported.marker hmarker
      obtain ⟨_, _, rfl⟩ := exists_of_markerDiagnostic? hmarker
      exact ⟨hreported, rfl⟩

end TypeGraph

namespace ServiceModel

variable {graph : TypeGraph} {diagnostic : Diagnostic}

/-- What a preparation reports under a number is all there is to report under it. -/
theorem mem_reportedAs_delivered_iff {code : String} :
    diagnostic ∈ reportedAs ((ofGraph graph).prepare .empty).delivered code ↔
      graph.Reported diagnostic ∧ diagnostic.problem.code = code := by
  rw [reportedAs, List.mem_filter, decide_eq_true_eq, mem_delivered_iff_reported]

/-- A preparation reports nothing twice under a number. -/
theorem nodup_reportedAs_delivered (graph : TypeGraph) (code : String) :
    (reportedAs ((ofGraph graph).prepare .empty).delivered code).Nodup :=
  (nodup_delivered graph).filter _

/-! ## Problems that share reports -/

/-- Of marked types without the base interface the places are reported. -/
theorem counted_lackingBase (graph : TypeGraph) :
    Counted (reportedAs ((ofGraph graph).prepare .empty).delivered "CCG002") graph.lackingBase
      (fun id => ⟨.missingRadioService, graph.locationOf id⟩) graph.definitionOf := by
  refine .of_mem_iff (nodup_reportedAs_delivered graph _) ?_
  intro diagnostic
  simp [mem_reportedAs_delivered_iff, TypeGraph.reported_and_code_iff]

/-- Of markers the bounds that are none and the places are reported. -/
theorem counted_invalidMarkers (graph : TypeGraph) :
    Counted (reportedAs ((ofGraph graph).prepare .empty).delivered "CCG005") graph.invalidMarkers
      Prod.snd Prod.fst := by
  refine .of_mem_iff (nodup_reportedAs_delivered graph _) ?_
  intro diagnostic
  simp [mem_reportedAs_delivered_iff, TypeGraph.reported_and_code_iff]

/-- Of duplicates the names, the two declaring types and the places are reported. -/
theorem counted_duplicates (graph : TypeGraph) :
    Counted (reportedAs ((ofGraph graph).prepare .empty).delivered "CCG004") graph.duplicates
      (fun pair => Candidate.duplicateDiagnostic pair.1 pair.2)
      (fun pair => (pair.2.definition, pair.2.slot)) := by
  refine .of_mem_iff (nodup_reportedAs_delivered graph _) ?_
  intro diagnostic
  simp [mem_reportedAs_delivered_iff, TypeGraph.reported_and_code_iff]

/-- A preparation reports marked types without the base interface, markers with a bound that is none
and duplicates as often as their reports differ: at least as often as there are definitions, types
and methods that they concern, if no two of these share a report. -/
theorem shared_reports_counted (graph : TypeGraph) :
    let delivered := ((ofGraph graph).prepare .empty).delivered
    Counted (reportedAs delivered "CCG002") graph.lackingBase
        (fun id => ⟨.missingRadioService, graph.locationOf id⟩) graph.definitionOf ∧
      Counted (reportedAs delivered "CCG005") graph.invalidMarkers Prod.snd Prod.fst ∧
      Counted (reportedAs delivered "CCG004") graph.duplicates
        (fun pair => Candidate.duplicateDiagnostic pair.1 pair.2)
        (fun pair => (pair.2.definition, pair.2.slot)) :=
  ⟨counted_lackingBase graph, counted_invalidMarkers graph, counted_duplicates graph⟩

/-- Two marked types with the same bound and without base interface, and two overloads that a
service declares and inherits, without places. -/
def sharedReports : List Declaration :=
  let overload (parameter : String) : Method :=
    ⟨"Go", ⟨"void", [], ""⟩, [⟨parameter, [], ""⟩], none, {}⟩
  [(Declaration.ofPath .interface "N" "IA").markedWithMaxLinks 0,
   (Declaration.ofPath .interface "N" "IB").markedWithMaxLinks 0,
   { Declaration.ofPath .interface "N" "IBase" with
      methods := [overload "int", overload "string"] },
   { (Declaration.ofPath .interface "N" "ID").marked with
      interfaces := [⟨baseInterfaceName, [], ""⟩, ⟨"N.IBase", [], ""⟩]
      methods := [overload "int", overload "string"] }]

/-- The graph of `sharedReports`. -/
def sharedReportsGraph : TypeGraph :=
  ⟨[⟨sharedReports[0], none, 0⟩, ⟨sharedReports[1], none, 1⟩, ⟨sharedReports[2], none, 2⟩,
    ⟨sharedReports[3], none, 3⟩]⟩

/-- Of two problems of each of the three kinds one is reported. -/
theorem counts_sharedReports :
    TypeGraph.build sharedReports = .ok sharedReportsGraph ∧ sharedReportsGraph.Acyclic ∧
      (sharedReportsGraph.lackingBase.map sharedReportsGraph.definitionOf).toFinset.card = 2 ∧
      (reportedAs ((ofGraph sharedReportsGraph).prepare .empty).delivered "CCG002").length = 1 ∧
      (sharedReportsGraph.invalidMarkers.map Prod.fst).toFinset.card = 2 ∧
      (reportedAs ((ofGraph sharedReportsGraph).prepare .empty).delivered "CCG005").length = 1 ∧
      (sharedReportsGraph.duplicates.map fun pair =>
        (pair.2.definition, pair.2.slot)).toFinset.card =
        2 ∧
      (reportedAs ((ofGraph sharedReportsGraph).prepare .empty).delivered "CCG004").length = 1 := by
  have hlacking : sharedReportsGraph.lackingBase = [0, 1] := by decide +kernel
  have hmarkers : sharedReportsGraph.invalidMarkers =
      [(0, ⟨.invalidMaxLinks "0", {}⟩), (1, ⟨.invalidMaxLinks "0", {}⟩)] := by decide +kernel
  have hduplicates : sharedReportsGraph.duplicates.map (fun pair =>
      ((pair.2.definition, pair.2.slot), Candidate.duplicateDiagnostic pair.1 pair.2)) =
      [(("N.IBase", 0), ⟨.duplicateInheritedMethod "Go" "N.ID" "N.IBase", {}⟩),
        (("N.IBase", 1), ⟨.duplicateInheritedMethod "Go" "N.ID" "N.IBase", {}⟩)] := by
          decide +kernel
  have hsubjects := congrArg (List.map Prod.fst) hduplicates
  have hreports := congrArg (List.map Prod.snd) hduplicates
  rw [List.map_map] at hsubjects hreports
  refine ⟨by rfl, TypeGraph.acyclic_of_lt (by decide), ?_, ?_, ?_, ?_, ?_, ?_⟩
  · rw [hlacking]
    decide
  · rw [(counted_lackingBase sharedReportsGraph).length_eq, hlacking]
    decide
  · rw [hmarkers]
    decide
  · rw [(counted_invalidMarkers sharedReportsGraph).length_eq, hmarkers]
    decide
  · exact congrArg (fun subjects => (List.toFinset subjects).card) hsubjects
  · rw [(counted_duplicates sharedReportsGraph).length_eq]
    exact congrArg (fun reports => (List.toFinset reports).card) hreports

end ServiceModel

end RadioBroker
