import RadioBroker.Diagnostic.Log

/-!
# What a log holds

Recording adds a diagnostic and takes nothing away, and what is added is pending. The parts of a log
are tied to each other: what is pending was recorded last, the log is aborted exactly if it holds
anything fatal, and each diagnostic that it holds is counted once. Recording and flushing keep it
so. -/

namespace RadioBroker.DiagnosticLog

variable {log : DiagnosticLog} {diagnostic : Diagnostic} {diagnostics more : List Diagnostic}

/-- Recording nothing changes nothing. -/
@[simp] theorem recordAll_nil : log.recordAll [] = log := rfl

/-- Two sequences of records make one. -/
theorem recordAll_append : log.recordAll (diagnostics ++ more) =
    (log.recordAll diagnostics).recordAll more :=
  List.foldl_append

/-! ## What recording adds -/

/-- A log holds what it held before and what has been recorded since. -/
theorem mem_recorded_recordAll {other : Diagnostic} :
    other ∈ (log.recordAll diagnostics).recorded ↔
      other ∈ log.recorded ∨ other ∈ diagnostics := by
  induction diagnostics generalizing log with
  | nil => simp
  | cons diagnostic diagnostics ih =>
      show other ∈ ((log.record diagnostic).recordAll diagnostics).recorded ↔ _
      rw [ih, mem_recorded_record, List.mem_cons, or_assoc]

/-- A record appends the same to what the log holds and to what is pending. -/
theorem exists_added_record (log : DiagnosticLog) (diagnostic : Diagnostic) :
    ∃ added, (log.record diagnostic).recorded = log.recorded ++ added ∧
      (log.record diagnostic).pending = log.pending ++ added := by
  by_cases hmem : diagnostic ∈ log.recorded
  · rw [record_of_mem hmem]
    exact ⟨[], (List.append_nil _).symm, (List.append_nil _).symm⟩
  · rw [record_of_notMem hmem]
    exact ⟨[diagnostic], rfl, rfl⟩

/-- Records append the same to what the log holds and to what is pending. -/
theorem exists_added_recordAll (log : DiagnosticLog) (diagnostics : List Diagnostic) :
    ∃ added, (log.recordAll diagnostics).recorded = log.recorded ++ added ∧
      (log.recordAll diagnostics).pending = log.pending ++ added := by
  induction diagnostics generalizing log with
  | nil => exact ⟨[], (List.append_nil _).symm, (List.append_nil _).symm⟩
  | cons diagnostic diagnostics ih =>
      obtain ⟨first, hrecorded, hpending⟩ := exists_added_record log diagnostic
      obtain ⟨rest, hrest, hrestPending⟩ := ih (log.record diagnostic)
      refine ⟨first ++ rest, ?_, ?_⟩
      · rw [← List.append_assoc, ← hrecorded]
        exact hrest
      · rw [← List.append_assoc, ← hpending]
        exact hrestPending

/-- A log from which nothing was delivered still has all pending that it holds. -/
theorem pending_recordAll (h : log.pending = log.recorded) :
    (log.recordAll diagnostics).pending = (log.recordAll diagnostics).recorded := by
  obtain ⟨added, hrecorded, hpending⟩ := exists_added_recordAll log diagnostics
  rw [hrecorded, hpending, h]

/-- A log from which nothing was delivered delivers, in two goes, all that it holds in the end. -/
theorem pending_append_pending (h : log.pending = log.recorded) :
    log.pending ++ (log.flush.recordAll diagnostics).pending =
      (log.flush.recordAll diagnostics).recorded := by
  obtain ⟨added, hrecorded, hpending⟩ := exists_added_recordAll log.flush diagnostics
  rw [hrecorded, hpending, h, pending_flush, List.nil_append, recorded_flush]

/-- Recording the images of diagnostics records the images of what these record, if different ones
stay different. -/
theorem recorded_recordAll_map {image : DiagnosticLog} {f : Diagnostic → Diagnostic}
    (hlog : image.recorded = log.recorded.map f)
    (hinjective : ∀ first ∈ log.recorded ++ diagnostics, ∀ second ∈ log.recorded ++ diagnostics,
      f first = f second → first = second) :
    (image.recordAll (diagnostics.map f)).recorded =
      (log.recordAll diagnostics).recorded.map f := by
  induction diagnostics generalizing log image with
  | nil => exact hlog
  | cons diagnostic diagnostics ih =>
      have hself : diagnostic ∈ log.recorded ++ diagnostic :: diagnostics :=
        List.mem_append_right _ List.mem_cons_self
      have hmem : f diagnostic ∈ image.recorded ↔ diagnostic ∈ log.recorded := by
        rw [hlog]
        refine ⟨fun h => ?_, List.mem_map_of_mem⟩
        obtain ⟨other, hother, heq⟩ := List.mem_map.mp h
        exact hinjective other (List.mem_append_left _ hother) diagnostic hself heq ▸ hother
      have hrecord : (image.record (f diagnostic)).recorded =
          (log.record diagnostic).recorded.map f := by
        by_cases hknown : diagnostic ∈ log.recorded
        · rw [record_of_mem hknown, record_of_mem (hmem.mpr hknown), hlog]
        · rw [record_of_notMem hknown, record_of_notMem fun h => hknown (hmem.mp h), hlog,
            List.map_append, List.map_singleton]
      have hsubset : (log.record diagnostic).recorded ++ diagnostics ⊆
          log.recorded ++ diagnostic :: diagnostics := by
        intro other hother
        rcases List.mem_append.mp hother with hrecorded | hlater
        · rcases mem_recorded_record.mp hrecorded with hearly | rfl
          · exact List.mem_append_left _ hearly
          · exact hself
        · exact List.mem_append_right _ (List.mem_cons_of_mem _ hlater)
      exact ih hrecord fun first hfirst second hsecond =>
        hinjective first (hsubset hfirst) second (hsubset hsecond)

/-- A record that is not fatal aborts nothing. -/
theorem isAborted_record_of_not_fatal (h : diagnostic.isFatal = false) :
    (log.record diagnostic).isAborted = log.isAborted := by
  by_cases hmem : diagnostic ∈ log.recorded
  · rw [record_of_mem hmem]
  · rw [record_of_notMem hmem, h, Bool.or_false]

/-- Records that are not fatal abort nothing. -/
theorem isAborted_recordAll_of_not_fatal
    (h : ∀ diagnostic ∈ diagnostics, diagnostic.isFatal = false) :
    (log.recordAll diagnostics).isAborted = log.isAborted := by
  induction diagnostics generalizing log with
  | nil => rfl
  | cons diagnostic diagnostics ih =>
      obtain ⟨hfirst, hrest⟩ := List.forall_mem_cons.mp h
      exact (ih hrest).trans (isAborted_record_of_not_fatal hfirst)

/-! ## How the parts of a log are tied to each other -/

/-- The parts of a log belong to one history of records and flushes. -/
structure Tied (log : DiagnosticLog) : Prop where
  nodup : log.recorded.Nodup
  /-- What is pending was recorded behind all that has been delivered. -/
  pending : log.pending <:+ log.recorded
  isAborted : log.isAborted = log.recorded.any Diagnostic.isFatal
  errorCount : log.errorCount = log.recorded.length

/-- Nothing has been recorded, and nothing noted. -/
theorem Tied.empty : Tied .empty where
  nodup := List.nodup_nil
  pending := List.suffix_rfl
  isAborted := rfl
  errorCount := rfl

/-- A record changes all parts together. -/
theorem Tied.record (h : log.Tied) (diagnostic : Diagnostic) : (log.record diagnostic).Tied := by
  by_cases hmem : diagnostic ∈ log.recorded
  · rwa [record_of_mem hmem]
  · rw [record_of_notMem hmem]
    constructor
    case nodup =>
      refine List.nodup_append.mpr ⟨h.nodup, List.pairwise_singleton _ _, ?_⟩
      rintro other hother _ hadded rfl
      rw [List.mem_singleton.mp hadded] at hother
      exact hmem hother
    case pending => exact List.suffix_append_self_iff.mpr h.pending
    case isAborted =>
      rw [h.isAborted, List.any_append, List.any_cons, List.any_nil, Bool.or_false]
    case errorCount => rw [h.errorCount, List.length_append, List.length_singleton]

/-- A flush takes away what is pending and nothing else. -/
theorem Tied.flush (h : log.Tied) : log.flush.Tied where
  nodup := h.nodup
  pending := List.nil_suffix
  isAborted := h.isAborted
  errorCount := h.errorCount

/-- Recording several diagnostics keeps the parts of a log together. -/
theorem Tied.recordAll (h : log.Tied) (diagnostics : List Diagnostic) :
    (log.recordAll diagnostics).Tied := by
  induction diagnostics generalizing log with
  | nil => exact h
  | cons diagnostic diagnostics ih => exact ih (h.record diagnostic)

/-- A log is aborted exactly if it holds a fatal diagnostic. -/
theorem Tied.isAborted_iff (h : log.Tied) : log.isAborted = true ↔
    ∃ diagnostic ∈ log.recorded, diagnostic.isFatal = true := by
  rw [h.isAborted, List.any_eq_true]

/-- What is recorded aborts a log if it is fatal. -/
theorem Tied.isAborted_recordAll_eq (h : log.Tied) (diagnostics : List Diagnostic) :
    (log.recordAll diagnostics).isAborted =
      (log.isAborted || diagnostics.any Diagnostic.isFatal) := by
  rw [Bool.eq_iff_iff, Bool.or_eq_true, (h.recordAll diagnostics).isAborted_iff, h.isAborted_iff,
    List.any_eq_true]
  simp only [mem_recorded_recordAll, or_and_right, exists_or]

end RadioBroker.DiagnosticLog
