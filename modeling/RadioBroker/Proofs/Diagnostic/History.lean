import RadioBroker.Proofs.Diagnostic.Log

/-!
# Histories of a log

Diagnostics are recorded in a log and the log is flushed into sinks, in any order. Whatever the
sinks do, what they have been handed and what is still pending is together what was recorded: each
problem at each place once, in the order of first records, as its reader gets it. What was recorded
before a flush is not handed over again after it.
-/

namespace RadioBroker

/-- A diagnostic as its reader gets it. Different problems may look alike. -/
structure RenderedDiagnostic where
  code : String
  severity : Severity
  message : String
  /-- What the numbers in the template of the message stand for. -/
  arguments : List String
  location : Location
deriving DecidableEq, Repr

/-- A problem, put into words at its place. -/
def Diagnostic.rendered (diagnostic : Diagnostic) : RenderedDiagnostic where
  code := diagnostic.problem.code
  severity := diagnostic.problem.severity
  message := diagnostic.problem.message
  arguments := diagnostic.problem.arguments
  location := diagnostic.location

/-- Two return types that are not supported look alike if they stand at one place. -/
example : (⟨.unsupportedReturnType "First" "N.IA" 0, {}⟩ : Diagnostic).rendered =
    (⟨.unsupportedReturnType "Second" "N.IA" 1, {}⟩ : Diagnostic).rendered := by rfl

/-- Only a missing base interface is fatal. -/
theorem Diagnostic.isFatal_iff {diagnostic : Diagnostic} :
    diagnostic.isFatal = true ↔ diagnostic.problem = .missingRadioService := by
  obtain ⟨problem, location⟩ := diagnostic
  cases problem <;> simp [Diagnostic.isFatal, Problem.severity]

namespace DiagnosticLog

/-! ## Actions and sinks -/

/-- A sink changes what is outside the log when it is handed a diagnostic. -/
abbrev Sink (σ : Type) := RenderedDiagnostic → σ → σ

/-- What is done with a log. -/
inductive Action (σ : Type) where
  | record (diagnostic : Diagnostic)
  /-- All that is pending is handed to a sink. -/
  | flush (sink : Sink σ)

/-- A log, what is outside it, and what has been handed over so far, to which sink. -/
structure Session (σ : Type) where
  log : DiagnosticLog
  outside : σ
  handed : List (Sink σ × RenderedDiagnostic)

variable {σ : Type}

namespace Session

/-- Nothing has been recorded and nothing handed over. -/
def start (outside : σ) : Session σ := ⟨.empty, outside, []⟩

/-- A sink is handed a diagnostic. -/
def hand (session : Session σ) (sink : Sink σ) (diagnostic : RenderedDiagnostic) : Session σ :=
  { session with
    outside := sink diagnostic session.outside
    handed := session.handed ++ [(sink, diagnostic)] }

/-- The session after an action. -/
def perform (session : Session σ) : Action σ → Session σ
  | .record diagnostic => { session with log := session.log.record diagnostic }
  | .flush sink =>
    let handedOver := (session.log.pending.map Diagnostic.rendered).foldl (hand · sink) session
    { handedOver with log := session.log.flush }

/-- The session after several actions. -/
def performAll (session : Session σ) (actions : List (Action σ)) : Session σ :=
  actions.foldl perform session

/-- What has been handed over so far, whoever got it. -/
def flushed (session : Session σ) : List RenderedDiagnostic := session.handed.map Prod.snd

/-- What is pending, as its reader will get it. -/
def pending (session : Session σ) : List RenderedDiagnostic :=
  session.log.pending.map Diagnostic.rendered

end Session

/-- The diagnostics that actions record, one for each such action. -/
def recordedBy (actions : List (Action σ)) : List Diagnostic :=
  actions.filterMap fun
    | .record diagnostic => some diagnostic
    | .flush _ => none

/-- Actions one after another record one after another. -/
theorem recordedBy_append (earlier later : List (Action σ)) :
    recordedBy (earlier ++ later) = recordedBy earlier ++ recordedBy later :=
  List.filterMap_append

/-! ## What an action keeps -/

variable {session : Session σ} {added : List Diagnostic} {outside : σ} {actions : List (Action σ)}

/-- Handing diagnostics over, one by one, appends them to what has been handed over. -/
theorem handed_foldl_hand (sink : Sink σ) (batch : List RenderedDiagnostic) :
    (batch.foldl (Session.hand · sink) session).handed =
      session.handed ++ batch.map fun diagnostic => (sink, diagnostic) := by
  induction batch generalizing session with
  | nil => simp
  | cons diagnostic batch ih =>
      rw [List.foldl_cons, ih]
      simp [Session.hand]

/-- A flush hands over all that is pending, behind what has been handed over before. -/
theorem flushed_flush (sink : Sink σ) :
    (session.perform (.flush sink)).flushed = session.flushed ++ session.pending := by
  rw [Session.flushed, Session.perform]
  simp only [handed_foldl_hand]
  simp [Session.flushed, Session.pending, Function.comp_def]

/-- A session after which `added` has been recorded: the log remembers the first of equal
diagnostics, its parts belong together, and what has been handed over and what is pending is what it
remembers. -/
structure Tells (session : Session σ) (added : List Diagnostic) : Prop where
  recorded : session.log.recorded = added.eraseDups
  tied : session.log.Tied
  flushed_append_pending : session.flushed ++ session.pending =
    session.log.recorded.map Diagnostic.rendered

/-- At first nothing has been recorded. -/
theorem Tells.start (outside : σ) : Tells (Session.start outside) [] where
  recorded := rfl
  tied := .empty
  flushed_append_pending := rfl

/-- A diagnostic that has not been recorded yet is appended, any other one is not. -/
theorem recorded_record_of_eq {log : DiagnosticLog} (h : log.recorded = added.eraseDups)
    (diagnostic : Diagnostic) :
    (log.record diagnostic).recorded = (added ++ [diagnostic]).eraseDups := by
  rw [List.eraseDups_append, List.removeAll]
  by_cases hknown : diagnostic ∈ added
  · rw [record_of_mem (h ▸ List.mem_eraseDups.mpr hknown), h]
    simp [hknown]
  · rw [record_of_notMem fun hmem => hknown (List.mem_eraseDups.mp (h ▸ hmem)), h]
    simp [hknown, List.eraseDups_cons]

/-- What a record adds to the log is pending behind all that is told already. -/
theorem Tells.record (h : Tells session added) (diagnostic : Diagnostic) :
    Tells (session.perform (.record diagnostic)) (added ++ [diagnostic]) where
  recorded := recorded_record_of_eq h.recorded diagnostic
  tied := h.tied.record diagnostic
  flushed_append_pending := by
    obtain ⟨more, hrecorded, hpending⟩ := exists_added_record session.log diagnostic
    have htold := h.flushed_append_pending
    show session.flushed ++ (session.log.record diagnostic).pending.map Diagnostic.rendered =
      (session.log.record diagnostic).recorded.map Diagnostic.rendered
    rw [hrecorded, hpending, List.map_append, List.map_append, ← List.append_assoc]
    exact congrArg (· ++ more.map Diagnostic.rendered) htold

/-- A flush hands over what is pending. -/
theorem Tells.flush (h : Tells session added) (sink : Sink σ) :
    Tells (session.perform (.flush sink)) added where
  recorded := h.recorded
  tied := h.tied.flush
  flushed_append_pending := by
    rw [flushed_flush, h.flushed_append_pending]
    exact List.append_nil _

/-- After a flush nothing is pending. -/
theorem pending_performAll_flush (sink : Sink σ) :
    (session.performAll (actions ++ [.flush sink])).pending = [] := by
  rw [Session.performAll, List.foldl_append]
  rfl

/-! ## Whole histories -/

/-- Each action adds what it records. -/
theorem Tells.performAll (h : Tells session added) (actions : List (Action σ)) :
    Tells (session.performAll actions) (added ++ recordedBy actions) := by
  induction actions generalizing session added with
  | nil => rwa [recordedBy, List.filterMap_nil, List.append_nil]
  | cons action actions ih =>
      cases action with
      | record diagnostic =>
          have hrest := ih (h.record diagnostic)
          rwa [List.append_assoc] at hrest
      | flush sink => exact ih (h.flush sink)

/-- What has been handed over stays in front of what is handed over later. -/
theorem handed_prefix_performAll : session.handed <+: (session.performAll actions).handed := by
  induction actions generalizing session with
  | nil => exact List.prefix_rfl
  | cons action actions ih =>
      refine List.IsPrefix.trans ?_ ih
      cases action with
      | record diagnostic => exact List.prefix_rfl
      | flush sink =>
          rw [Session.perform]
          simp only [handed_foldl_hand]
          exact List.prefix_append _ _

/-- What is outside is what the sinks have made of what they were handed, in that order. -/
def Session.Driven (outside : σ) (session : Session σ) : Prop :=
  session.outside = session.handed.foldl (fun state entry => entry.1 entry.2 state) outside

/-- A sink that is handed several diagnostics changes what is outside once for each. -/
theorem Session.Driven.foldl_hand (h : session.Driven outside) (sink : Sink σ)
    (batch : List RenderedDiagnostic) :
    (batch.foldl (Session.hand · sink) session).Driven outside := by
  induction batch generalizing session with
  | nil => exact h
  | cons diagnostic batch ih =>
      refine ih ?_
      show sink diagnostic session.outside =
        (session.handed ++ [(sink, diagnostic)]).foldl
          (fun state entry => entry.1 entry.2 state) outside
      rw [List.foldl_append]
      exact congrArg (sink diagnostic) h

/-- Nothing but sinks changes what is outside. -/
theorem Session.Driven.performAll (h : session.Driven outside) (actions : List (Action σ)) :
    (session.performAll actions).Driven outside := by
  induction actions generalizing session with
  | nil => exact h
  | cons action actions ih =>
      cases action with
      | record diagnostic => exact @ih (session.perform (.record diagnostic)) h
      | flush sink => exact @ih (session.perform (.flush sink)) (h.foldl_hand sink _)

/-- What is known of a log after `actions`, which start with an empty one. -/
structure Remembers (outside : σ) (actions : List (Action σ)) (session : Session σ) : Prop where
  flushed_append_pending : session.flushed ++ session.pending =
    (recordedBy actions).eraseDups.map Diagnostic.rendered
  driven : session.Driven outside
  errorCount_eq : session.log.errorCount = (recordedBy actions).eraseDups.length
  isAborted_iff : session.log.isAborted = true ↔
    ∃ diagnostic ∈ recordedBy actions, diagnostic.problem = .missingRadioService
  /-- After a flush nothing is pending. -/
  pending_of_flush : ∀ earlier sink, actions = earlier ++ [.flush sink] → session.pending = []
  /-- What is handed over after a flush, or pending then, are the diagnostics that are recorded
  after it and not before. -/
  later_of_flush : ∀ earlier sink later, actions = earlier ++ .flush sink :: later →
    ∃ handed, session.handed =
        ((Session.start outside).performAll (earlier ++ [.flush sink])).handed ++ handed ∧
      handed.map Prod.snd ++ session.pending =
        ((recordedBy later).filter (· ∉ recordedBy earlier)).eraseDups.map Diagnostic.rendered

/-- Whatever is done with a log, and whatever the sinks do, nothing that is recorded is lost,
repeated or handed over in another order. -/
theorem remembers_performAll (outside : σ) (actions : List (Action σ)) :
    Remembers outside actions ((Session.start outside).performAll actions) := by
  have hstart : (Session.start outside).Driven outside := rfl
  have h := (Tells.start outside).performAll actions
  rw [List.nil_append] at h
  constructor
  case flushed_append_pending => rw [h.flushed_append_pending, h.recorded]
  case driven => exact hstart.performAll actions
  case errorCount_eq => rw [h.tied.errorCount, h.recorded]
  case isAborted_iff =>
    rw [h.tied.isAborted_iff, h.recorded]
    simp only [List.mem_eraseDups, Diagnostic.isFatal_iff]
  case pending_of_flush =>
    rintro earlier sink rfl
    exact pending_performAll_flush sink
  case later_of_flush =>
    rintro earlier sink later rfl
    rw [List.append_cons, Session.performAll, List.foldl_append]
    obtain ⟨handed, hhanded⟩ := @handed_prefix_performAll _
      ((Session.start outside).performAll (earlier ++ [.flush sink])) later
    refine ⟨handed, hhanded.symm, ?_⟩
    -- At the flush all that was recorded before has been handed over, so the rest is new.
    have hbefore := (Tells.start outside).performAll (earlier ++ [.flush sink])
    have hearlier := hbefore.flushed_append_pending
    have hnothing : recordedBy (earlier ++ [Action.flush sink]) = recordedBy earlier := by
      rw [recordedBy_append]
      exact List.append_nil _
    rw [pending_performAll_flush, List.append_nil, hbefore.recorded, List.nil_append,
      hnothing] at hearlier
    have hall := h.flushed_append_pending
    rw [h.recorded, List.append_cons, recordedBy_append, hnothing, List.eraseDups_append,
      List.map_append, Session.performAll, List.foldl_append] at hall
    have hnew : (recordedBy later).removeAll (recordedBy earlier) =
        (recordedBy later).filter (· ∉ recordedBy earlier) := by
      simp [List.removeAll]
    refine (List.append_right_inj ((recordedBy earlier).eraseDups.map Diagnostic.rendered)).mp ?_
    rw [← hnew, ← hall, ← hearlier, ← List.append_assoc, Session.flushed, Session.flushed,
      ← List.map_append, hhanded]
    rfl

end DiagnosticLog

end RadioBroker
