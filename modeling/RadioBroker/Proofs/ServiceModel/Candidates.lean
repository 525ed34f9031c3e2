import RadioBroker.ServiceModel.Check

/-!
# What becomes of candidates

Candidates are judged one after another. Said by positions: a candidate is offered if none in front
of it has its signature and its return type has a dispatch kind; any other one is reported, as a
duplicate of the first of its signature or for its return type.
-/

namespace RadioBroker.Candidate

/-- The method that a candidate offers. -/
def serviceMethod (candidate : Candidate) : ServiceMethod where
  name := candidate.method.name
  parameters := candidate.method.parameters
  returnType := candidate.method.returnType
  kind := candidate.method.returnType.classify.kind
  result := candidate.method.returnType.classify.result
  interface := candidate.interface
  location := candidate.method.location

/-- The return type of a candidate has a dispatch kind. -/
def Supported (candidate : Candidate) : Prop :=
  candidate.method.returnType.classify.kind ≠ .other

instance (candidate : Candidate) : Decidable candidate.Supported :=
  inferInstanceAs (Decidable (_ ≠ _))

/-- The first of `earlier` candidates that has the signature of a candidate. -/
def forerunner? (earlier : List Candidate) (candidate : Candidate) : Option Candidate :=
  earlier.find? fun other => other.sameSignature candidate

/-- Whether the candidate at a position is offered: it is the first of its signature, and its return
type has a dispatch kind. -/
def isOffered (candidates : List Candidate) (entry : Candidate × Nat) : Bool :=
  (forerunner? (candidates.take entry.2) entry.1).isNone && decide entry.1.Supported

/-- The methods to offer. -/
def offered (candidates : List Candidate) : List ServiceMethod :=
  (candidates.zipIdx.filter (isOffered candidates)).map fun entry => entry.1.serviceMethod

/-- What becomes of a candidate behind `earlier` ones. -/
def judge (earlier : List Candidate) (candidate : Candidate) : Verdict :=
  match earlier.find? fun other => other.sameSignature candidate with
  | some first => .rejected (first.duplicateDiagnostic candidate)
  | none => judgeKind candidate

/-- What becomes of candidates, each behind those in front of it. -/
def judgeAll (earlier : List Candidate) : List Candidate → List Verdict
  | [] => []
  | candidate :: rest =>
    judge earlier candidate :: judgeAll (earlier ++ [candidate]) rest

variable {candidates earlier : List Candidate} {candidate first : Candidate} {position : Nat}

/-! ## The verdict on one candidate -/

/-- A candidate is rejected if an earlier one has its signature. -/
theorem judge_of_some (h : forerunner? earlier candidate = some first) :
    judge earlier candidate = .rejected (duplicateDiagnostic first candidate) := by
  rw [forerunner?] at h
  rw [judge, h]

/-- The first candidate of a signature is rejected if its return type has no dispatch kind. -/
theorem judge_of_unsupported
    (h : forerunner? earlier candidate = none)
    (hkind : ¬ candidate.Supported) :
    judge earlier candidate = .rejected (unsupportedDiagnostic candidate) := by
  rw [forerunner?] at h
  simp only [Supported, ne_eq, Decidable.not_not] at hkind
  simp [judge, h, judgeKind, hkind]

/-- The first candidate of a signature is accepted if its return type has a dispatch kind. -/
theorem judge_of_supported
    (h : forerunner? earlier candidate = none)
    (hkind : candidate.Supported) :
    judge earlier candidate = .accepted candidate.serviceMethod := by
  rw [forerunner?] at h
  simp only [Supported, ne_eq] at hkind
  simp [judge, h, judgeKind, hkind, serviceMethod]

/-- No verdict on a candidate is fatal. -/
theorem judge_not_fatal {diagnostic : Diagnostic}
    (h : (judge earlier candidate).diagnostic? = some diagnostic) : diagnostic.isFatal = false := by
  cases hfirst : forerunner? earlier candidate with
  | some first =>
      rw [judge_of_some hfirst] at h
      cases h
      rfl
  | none =>
      by_cases hkind : candidate.Supported
      · rw [judge_of_supported hfirst hkind] at h
        cases h
      · rw [judge_of_unsupported hfirst hkind] at h
        cases h
        rfl

/-! ## The verdicts on all candidates -/

/-- Each candidate is judged behind those in front of it. -/
theorem getElem?_judgeAll (earlier candidates : List Candidate) (position : Nat) :
    (judgeAll earlier candidates)[position]? =
      candidates[position]?.map (judge (earlier ++ candidates.take position)) := by
  induction candidates generalizing earlier position with
  | nil => rfl
  | cons candidate candidates ih =>
      cases position with
      | zero => simp [judgeAll]
      | succ position => simp [judgeAll, ih]

/-- The verdicts in terms of positions. -/
theorem judgeAll_eq_map (candidates : List Candidate) :
    judgeAll [] candidates =
      candidates.zipIdx.map fun entry => judge (candidates.take entry.2) entry.1 := by
  apply List.ext_getElem?
  intro position
  rw [getElem?_judgeAll, List.getElem?_map, List.getElem?_zipIdx]
  cases candidates[position]? <;> simp

/-- The accepted methods are those to offer. -/
theorem filterMap_method?_judgeAll (candidates : List Candidate) :
    (judgeAll [] candidates).filterMap Verdict.method? = offered candidates := by
  rw [judgeAll_eq_map, List.filterMap_map, offered, ← List.filterMap_eq_map, List.filterMap_filter]
  congr 1
  funext ⟨candidate, position⟩
  simp only [Function.comp_apply]
  cases hfirst : forerunner? (candidates.take position) candidate with
  | some first => simp [isOffered, hfirst, judge_of_some hfirst, Verdict.method?]
  | none =>
      by_cases hkind : candidate.Supported
      · simp [isOffered, hfirst, judge_of_supported hfirst hkind, Verdict.method?, hkind]
      · simp [isOffered, hfirst, judge_of_unsupported hfirst hkind, Verdict.method?, hkind]

/-- What a verdict rejects is reported. -/
theorem diagnostic_mem {diagnostic : Diagnostic} (h : candidates[position]? = some candidate)
    (hjudge : judge (candidates.take position) candidate = .rejected diagnostic) :
    diagnostic ∈ (judgeAll [] candidates).filterMap Verdict.diagnostic? := by
  refine List.mem_filterMap.mpr ⟨.rejected diagnostic, ?_, rfl⟩
  have hverdict := getElem?_judgeAll [] candidates position
  rw [h, Option.map_some, List.nil_append, hjudge] at hverdict
  exact List.mem_of_getElem? hverdict

/-- What is reported of candidates: each that has a forerunner as a duplicate, each other one for
its return type unless it is supported. -/
theorem mem_diagnostics_iff {diagnostic : Diagnostic} :
    diagnostic ∈ (judgeAll [] candidates).filterMap Verdict.diagnostic? ↔
      ∃ (position : Nat) (candidate : Candidate), candidates[position]? = some candidate ∧
        ((∃ first, forerunner? (candidates.take position) candidate = some first ∧
            diagnostic = duplicateDiagnostic first candidate) ∨
          (forerunner? (candidates.take position) candidate = none ∧ ¬ candidate.Supported ∧
            diagnostic = unsupportedDiagnostic candidate)) := by
  constructor
  · intro hmem
    obtain ⟨verdict, hverdict, hreported⟩ := List.mem_filterMap.mp hmem
    obtain ⟨position, hposition⟩ := List.mem_iff_getElem?.mp hverdict
    rw [getElem?_judgeAll, List.nil_append] at hposition
    obtain ⟨candidate, hcandidate, rfl⟩ := Option.map_eq_some_iff.mp hposition
    refine ⟨position, candidate, hcandidate, ?_⟩
    cases hfirst : forerunner? (candidates.take position) candidate with
    | some first =>
        rw [judge_of_some hfirst] at hreported
        cases hreported
        exact Or.inl ⟨first, rfl, rfl⟩
    | none =>
        by_cases hkind : candidate.Supported
        · rw [judge_of_supported hfirst hkind] at hreported
          cases hreported
        · rw [judge_of_unsupported hfirst hkind] at hreported
          cases hreported
          exact Or.inr ⟨rfl, hkind, rfl⟩
  · rintro ⟨position, candidate, hcandidate, ⟨first, hfirst, rfl⟩ | ⟨hfirst, hkind, rfl⟩⟩
    · exact diagnostic_mem hcandidate (judge_of_some hfirst)
    · exact diagnostic_mem hcandidate (judge_of_unsupported hfirst hkind)

/-- No verdict on candidates is fatal. -/
theorem judgeAll_not_fatal {diagnostic : Diagnostic}
    (h : diagnostic ∈ (judgeAll [] candidates).filterMap Verdict.diagnostic?) :
    diagnostic.isFatal = false := by
  obtain ⟨verdict, hmem, hdiagnostic⟩ := List.mem_filterMap.mp h
  rw [judgeAll_eq_map] at hmem
  obtain ⟨entry, _, rfl⟩ := List.mem_map.mp hmem
  exact judge_not_fatal hdiagnostic

end RadioBroker.Candidate
