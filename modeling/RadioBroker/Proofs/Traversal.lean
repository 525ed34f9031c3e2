import Mathlib.Data.List.Forall2

/-!
# Steps that may fail

When a sequence of steps that may fail succeeds, and what its failure comes from. Sequences are
`Except` binds, maps and folds over lists.
-/

namespace RadioBroker

variable {ε α β σ : Type}

/-- Two steps succeed together when the first succeeds and the second succeeds behind it. -/
theorem bind_eq_ok_iff {step : Except ε α} {next : α → Except ε β} {result : β} :
    (step >>= next) = .ok result ↔ ∃ value, step = .ok value ∧ next value = .ok result := by
  cases step <;> simp [bind, Except.bind]

/-- Two steps fail when the first fails, or when the second fails behind it. -/
theorem bind_eq_error_iff {step : Except ε α} {next : α → Except ε β} {error : ε} :
    (step >>= next) = .error error ↔
      step = .error error ∨ ∃ value, step = .ok value ∧ next value = .error error := by
  cases step <;> simp [bind, Except.bind]

/-- A step succeeds under another type of errors when it succeeds. -/
theorem mapError_eq_ok_iff {ε' : Type} {step : Except ε α} {name : ε → ε'} {result : α} :
    step.mapError name = .ok result ↔ step = .ok result := by
  cases step <;> simp [Except.mapError]

/-- A traversal succeeds when it succeeds at each element. -/
theorem mapM_eq_ok_iff {step : α → Except ε β} {inputs : List α} {results : List β} :
    inputs.mapM step = .ok results ↔
      List.Forall₂ (fun input result => step input = .ok result) inputs results := by
  induction inputs generalizing results with
  | nil => cases results <;> simp [pure, Except.pure]
  | cons input inputs ih =>
      simp only [List.mapM_cons, bind_eq_ok_iff, ih, pure, Except.pure, Except.ok.injEq]
      constructor
      · intro hsteps
        obtain ⟨result, hhead, others, htail, rfl⟩ := hsteps
        exact .cons hhead htail
      · intro h
        cases h with
        | cons hhead htail => exact ⟨_, hhead, _, htail, rfl⟩

/-- A traversal with a known result at each element has these results. -/
theorem mapM_eq_ok_map {step : α → Except ε β} {result : α → β} {inputs : List α}
    (h : ∀ input ∈ inputs, step input = .ok (result input)) :
    inputs.mapM step = .ok (inputs.map result) := by
  rw [mapM_eq_ok_iff, List.forall₂_map_right_iff, List.forall₂_same]
  exact h

/-- Traversals by steps that do the same at each element are one traversal. -/
theorem mapM_congr_of_mem {step twin : α → Except ε β} {inputs : List α}
    (h : ∀ input ∈ inputs, step input = twin input) : inputs.mapM step = inputs.mapM twin := by
  induction inputs with
  | nil => rfl
  | cons input inputs ih =>
      obtain ⟨hinput, hrest⟩ := List.forall_mem_cons.mp h
      rw [List.mapM_cons, List.mapM_cons, hinput, ih hrest]

/-- A traversal that succeeds does so at each element. -/
theorem exists_ok_of_mapM {step : α → Except ε β} {inputs : List α} {results : List β}
    (h : inputs.mapM step = .ok results) {input : α} (hinput : input ∈ inputs) :
    ∃ result, step input = .ok result := by
  obtain ⟨position, hposition, rfl⟩ := List.mem_iff_getElem.mp hinput
  obtain ⟨hlength, hresults⟩ := List.forall₂_iff_get.mp (mapM_eq_ok_iff.mp h)
  exact ⟨_, hresults position hposition (hlength ▸ hposition)⟩

/-- What a traversal yields it yields at one of its elements. -/
theorem exists_of_mem_mapM {step : α → Except ε β} {inputs : List α} {results : List β}
    (h : inputs.mapM step = .ok results) {result : β} (hresult : result ∈ results) :
    ∃ input ∈ inputs, step input = .ok result := by
  obtain ⟨position, hposition, rfl⟩ := List.mem_iff_getElem.mp hresult
  obtain ⟨hlength, hresults⟩ := List.forall₂_iff_get.mp (mapM_eq_ok_iff.mp h)
  exact ⟨_, List.getElem_mem _, hresults position (hlength ▸ hposition) hposition⟩

/-- A traversal that fails does so at one of its elements. -/
theorem exists_error_of_mapM {step : α → Except ε β} {inputs : List α} {error : ε}
    (h : inputs.mapM step = .error error) : ∃ input ∈ inputs, step input = .error error := by
  induction inputs with
  | nil => simp [pure, Except.pure] at h
  | cons input inputs ih =>
      simp only [List.mapM_cons, bind_eq_error_iff, pure, Except.pure] at h
      rcases h with hhead | ⟨_, _, htail | ⟨_, _, hnever⟩⟩
      · exact ⟨input, List.mem_cons_self, hhead⟩
      · obtain ⟨other, hmem, hother⟩ := ih htail
        exact ⟨other, List.mem_cons_of_mem _ hmem, hother⟩
      · cases hnever

/-- A fold that fails does so at one of its elements. -/
theorem exists_error_of_foldlM {step : σ → α → Except ε σ} {inputs : List α} {state : σ}
    {error : ε} (h : inputs.foldlM step state = .error error) :
    ∃ input ∈ inputs, ∃ reached, step reached input = .error error := by
  induction inputs generalizing state with
  | nil => cases h
  | cons input inputs ih =>
      rw [List.foldlM_cons, bind_eq_error_iff] at h
      rcases h with hhead | ⟨next, _, htail⟩
      · exact ⟨input, List.mem_cons_self, state, hhead⟩
      · obtain ⟨other, hmem, hother⟩ := ih htail
        exact ⟨other, List.mem_cons_of_mem _ hmem, hother⟩

/-- What each step of a fold keeps, the fold keeps. -/
theorem foldlM_invariant {step : σ → α → Except ε σ} {invariant : σ → Prop}
    (hstep : ∀ state input next, invariant state → step state input = .ok next → invariant next)
    {inputs : List α} {state final : σ} (hstart : invariant state)
    (h : inputs.foldlM step state = .ok final) : invariant final := by
  induction inputs generalizing state with
  | nil =>
      cases h
      exact hstart
  | cons input inputs ih =>
      rw [List.foldlM_cons, bind_eq_ok_iff] at h
      obtain ⟨next, hnext, hrest⟩ := h
      exact ih (hstep state input next hstart hnext) hrest

end RadioBroker
