import RadioBroker.Diagnostic.Basic

/-!
# The diagnostic log

Problems are recorded where they are found and delivered to the reader at checkpoints. The log
remembers each problem at each place once, keeps those that are still to be delivered, and notes by
the way whether anything was fatal and how many errors there were.
-/

namespace RadioBroker

/-- What has been recorded, and what of it is to be delivered next. -/
structure DiagnosticLog where
  /-- The diagnostics so far, each of them once. -/
  recorded : List Diagnostic := []
  /-- The diagnostics that have not been delivered yet, in the order of first record. A diagnostic
  is put into words from its problem alone, so it may wait for that until it is delivered. -/
  pending : List Diagnostic := []
  /-- Whether anything fatal has been recorded. -/
  isAborted : Bool := false
  /-- The number of distinct diagnostics that are errors or worse. -/
  errorCount : Nat := 0
deriving DecidableEq, Repr

namespace DiagnosticLog

/-- Nothing has been recorded. -/
def empty : DiagnosticLog := {}

/-- Notes how severe a diagnostic is that is recorded for the first time. -/
def count (log : DiagnosticLog) : Severity → DiagnosticLog
  | .fatal => { log with isAborted := true, errorCount := log.errorCount + 1 }
  | .error => { log with errorCount := log.errorCount + 1 }
  | .warning => log

/-- Records a diagnostic, unless it has been recorded already. -/
def record (log : DiagnosticLog) (diagnostic : Diagnostic) : DiagnosticLog :=
  if diagnostic ∈ log.recorded then log
  else
    let log := { log with recorded := log.recorded ++ [diagnostic] }
    let log := log.count diagnostic.problem.severity
    { log with pending := log.pending ++ [diagnostic] }

/-- Records diagnostics one after another. -/
def recordAll (log : DiagnosticLog) (diagnostics : List Diagnostic) : DiagnosticLog :=
  diagnostics.foldl record log

/-- The log after all that is pending has been delivered. -/
def flush (log : DiagnosticLog) : DiagnosticLog := { log with pending := [] }

/-- After a flush nothing is pending. -/
@[simp] theorem pending_flush (log : DiagnosticLog) : log.flush.pending = [] := rfl

/-- A flush forgets nothing that has been recorded. -/
@[simp] theorem recorded_flush (log : DiagnosticLog) : log.flush.recorded = log.recorded := rfl

@[simp] theorem isAborted_flush (log : DiagnosticLog) : log.flush.isAborted = log.isAborted := rfl

@[simp] theorem errorCount_flush (log : DiagnosticLog) :
    log.flush.errorCount = log.errorCount := rfl

/-- What is recorded once more changes nothing. -/
theorem record_of_mem {log : DiagnosticLog} {diagnostic : Diagnostic}
    (h : diagnostic ∈ log.recorded) : log.record diagnostic = log := if_pos h

/-- What is recorded for the first time is an error at least. -/
theorem record_of_notMem {log : DiagnosticLog} {diagnostic : Diagnostic}
    (h : diagnostic ∉ log.recorded) :
    log.record diagnostic =
      { recorded := log.recorded ++ [diagnostic]
        pending := log.pending ++ [diagnostic]
        isAborted := log.isAborted || diagnostic.isFatal
        errorCount := log.errorCount + 1 } := by
  obtain ⟨problem, location⟩ := diagnostic
  rw [record, if_neg h]
  cases problem <;> simp [count, Problem.severity, Diagnostic.isFatal]

theorem mem_recorded_record {log : DiagnosticLog} {diagnostic other : Diagnostic} :
    other ∈ (log.record diagnostic).recorded ↔ other ∈ log.recorded ∨ other = diagnostic := by
  by_cases hmem : diagnostic ∈ log.recorded
  · rw [record_of_mem hmem]
    refine ⟨Or.inl, ?_⟩
    rintro (hother | rfl)
    · exact hother
    · exact hmem
  · rw [record_of_notMem hmem, List.mem_append, List.mem_singleton]

end DiagnosticLog

end RadioBroker
