import RadioBroker.Generation.Pipeline
import RadioBroker.Proofs.Program.Startup
import RadioBroker.Proofs.Program.Totality

/-!
# Generations that are interrupted

A generation hands out its units one by one. It may be cancelled meanwhile, and a unit may not be
taken. What has been handed out by then is always a beginning of what is generated at once, and the
root unit is among it only if nothing is missing.
-/

namespace RadioBroker

/-- When a generation is cancelled, and which of its units is not taken. -/
structure Interruption where
  /-- How many units have been taken when the generation is cancelled; with zero it is cancelled
  before it starts. -/
  cancelAt : Option Nat := none
  /-- The unit that is not taken, counted from one, and the error. -/
  refusal : Option (Nat × OutputError) := none

/-- What has become of the units that were handed out. -/
structure Receipt where
  taken : List GeneratedUnit := []
  refused : List GeneratedUnit := []

namespace Interruption

/-- Whether the generation is cancelled once that many units have been taken. -/
def isCancelled (interruption : Interruption) (taken : Nat) : Bool :=
  interruption.cancelAt.any (· ≤ taken)

/-- The error at the unit with a number, if it is not taken. -/
def errorAt? (interruption : Interruption) (number : Nat) : Option OutputError :=
  (interruption.refusal.filter (·.1 = number)).map Prod.snd

/-- The channel of an interrupted generation. -/
def channel (interruption : Interruption) : Channel (StateM Receipt) where
  emit unit := do
    let receipt ← get
    match interruption.errorAt? (receipt.taken.length + 1) with
    | some error =>
      set { receipt with refused := receipt.refused ++ [unit] }
      pure (.error error)
    | none =>
      set { receipt with taken := receipt.taken ++ [unit] }
      pure (.ok ())
  cancelled := do
    let receipt ← get
    pure (interruption.isCancelled receipt.taken.length)

/-- An interrupted generation: its report, and what has become of its units. -/
def generate (interruption : Interruption) (settings : Settings)
    (declarations : List Declaration) : Report RunSummary × Receipt :=
  (interruption.channel.generate settings declarations).run {}

variable {interruption : Interruption} {α β : Type}

/-! ## Single steps -/

/-- A step of a generation, from what has become of units before. -/
def perform (step : ExceptT GenerateError (StateM Receipt) α) (receipt : Receipt) :
    Except GenerateError α × Receipt :=
  step.run.run receipt

/-- A step that succeeds is followed by the next one. -/
theorem perform_bind_of_ok {step : ExceptT GenerateError (StateM Receipt) α}
    {next : α → ExceptT GenerateError (StateM Receipt) β} {receipt later : Receipt} {value : α}
    (h : perform step receipt = (.ok value, later)) :
    perform (step >>= next) receipt = perform (next value) later := by
  unfold perform at h ⊢
  simp only [ExceptT.run_bind, StateT.run_bind, h]
  rfl

/-- A step that fails is the last one. -/
theorem perform_bind_of_error {step : ExceptT GenerateError (StateM Receipt) α}
    {next : α → ExceptT GenerateError (StateM Receipt) β} {receipt later : Receipt}
    {error : GenerateError} (h : perform step receipt = (.error error, later)) :
    perform (step >>= next) receipt = (.error error, later) := by
  unfold perform at h ⊢
  simp only [ExceptT.run_bind, StateT.run_bind, h]
  rfl

/-- What a channel does is a step that succeeds. -/
theorem perform_monadLift {step : StateM Receipt α} {receipt later : Receipt} {value : α}
    (h : step.run receipt = (value, later)) :
    perform (liftM step) receipt = (.ok value, later) := by
  show (Except.ok (step.run receipt).1, (step.run receipt).2) = _
  rw [h]

/-- A checkpoint ends a generation that is cancelled by then, and changes nothing. -/
theorem perform_checkpoint (interruption : Interruption) (receipt : Receipt) :
    perform interruption.channel.checkpoint receipt =
      (if interruption.isCancelled receipt.taken.length then .error .cancelled else .ok (),
        receipt) := by
  have hasked : interruption.channel.cancelled.run receipt =
      (interruption.isCancelled receipt.taken.length, receipt) := rfl
  rw [Channel.checkpoint, perform_bind_of_ok (perform_monadLift hasked)]
  cases interruption.isCancelled receipt.taken.length <;> rfl

/-- A step of the synthesis that succeeds hands out nothing. -/
theorem perform_lift {value : α} {result : Except SynthesisError α} (h : result = .ok value)
    (receipt : Receipt) : perform (Channel.lift result) receipt = (.ok value, receipt) := by
  subst h
  rfl

/-- The roots of a namespace are visited to the end in a generation that is not cancelled by then:
nothing is handed out in between, so nothing changes that. -/
theorem perform_yieldRoots {model : ServiceModel} {yielded final : ServiceModel.Yield}
    {roots : List TypeId} {receipt : Receipt}
    (hopen : interruption.isCancelled receipt.taken.length = false)
    (hroots : roots.foldlM (fun yielded root =>
      yielded.extend fun withRoutine => model.piecesOf withRoutine root) yielded = .ok final) :
    perform (interruption.channel.yieldRoots model yielded roots) receipt =
      (.ok final, receipt) := by
  induction roots generalizing yielded with
  | nil =>
      cases hroots
      rfl
  | cons root roots ih =>
      rw [List.foldlM_cons, bind_eq_ok_iff] at hroots
      obtain ⟨extended, hextended, hrest⟩ := hroots
      have hcheck := perform_checkpoint interruption receipt
      simp only [hopen, Bool.false_eq_true, if_false] at hcheck
      rw [Channel.yieldRoots, perform_bind_of_ok hcheck,
        perform_bind_of_ok (perform_lift hextended receipt)]
      exact ih hrest

/-- A unit is taken unless its number is that of the refusal. -/
theorem perform_send_of_none {unit : GeneratedUnit} {receipt : Receipt}
    (h : interruption.errorAt? (receipt.taken.length + 1) = none) :
    perform (interruption.channel.send unit) receipt =
      (.ok (), { receipt with taken := receipt.taken ++ [unit] }) := by
  have hemit : (interruption.channel.emit unit).run receipt =
      (.ok (), { receipt with taken := receipt.taken ++ [unit] }) := by
    simp [channel, h]
    rfl
  rw [Channel.send, perform_bind_of_ok (perform_monadLift hemit)]
  rfl

/-- A unit that is not taken ends the generation. -/
theorem perform_send_of_some {unit : GeneratedUnit} {receipt : Receipt} {error : OutputError}
    (h : interruption.errorAt? (receipt.taken.length + 1) = some error) :
    perform (interruption.channel.send unit) receipt =
      (.error (.output error), { receipt with refused := receipt.refused ++ [unit] }) := by
  have hemit : (interruption.channel.emit unit).run receipt =
      (.error error, { receipt with refused := receipt.refused ++ [unit] }) := by
    simp [channel, h]
    rfl
  rw [Channel.send, perform_bind_of_ok (perform_monadLift hemit)]
  rfl

/-! ## Handing out units one by one -/

/-- A generation that is not cancelled after that many units will be cancelled later, if at all. -/
theorem isCancelled_eq_false_iff {taken : Nat} :
    interruption.isCancelled taken = false ↔
      ∀ k, interruption.cancelAt = some k → taken < k := by
  cases h : interruption.cancelAt <;> simp [isCancelled, h]

/-- A generation that is cancelled after that many units, and was not before. -/
theorem cancelAt_of_isCancelled {taken : Nat} (h : interruption.isCancelled taken = true)
    (hstart : ∀ k, interruption.cancelAt = some k → taken ≤ k) :
    interruption.cancelAt = some taken := by
  obtain ⟨k, hk, hle⟩ := (Option.any_eq_true _ _).mp h
  have heq : taken = k := Nat.le_antisymm (hstart k hk) (of_decide_eq_true hle)
  rw [heq, hk]

/-- How handing out `units` may go when `before` have been taken: to the end, until the generation
is cancelled, or until a unit is not taken. -/
inductive Hands (interruption : Interruption) (before units : List GeneratedUnit) (value : α) :
    Except GenerateError α × Receipt → Prop
  | completed
      (hopen : ∀ k, interruption.cancelAt = some k → units ≠ [] → before.length + units.length ≤ k)
      (haccepted : ∀ n < units.length, interruption.errorAt? (before.length + n + 1) = none) :
      Hands interruption before units value (.ok value, ⟨before ++ units, []⟩)
  | cancelled {taken : Nat} (hcancel : interruption.cancelAt = some (before.length + taken))
      (htaken : taken ≤ units.length)
      (haccepted : ∀ n < taken, interruption.errorAt? (before.length + n + 1) = none) :
      Hands interruption before units value
        (.error .cancelled, ⟨before ++ units.take taken, []⟩)
  | refused {taken : Nat} {error : OutputError} (htaken : taken < units.length)
      (herror : interruption.errorAt? (before.length + taken + 1) = some error)
      (hopen : ∀ k, interruption.cancelAt = some k → before.length + taken < k) :
      Hands interruption before units value
        (.error (.output error), ⟨before ++ units.take taken, [units[taken]]⟩)

/-- Nothing is handed out where there are no units. -/
theorem Hands.nil {before : List GeneratedUnit} {value : α} :
    Hands interruption before [] value (.ok value, ⟨before, []⟩) := by
  have hdone : Hands interruption before [] value (.ok value, ⟨before ++ [], []⟩) :=
    .completed (fun _ _ hnever => absurd rfl hnever) nofun
  rwa [List.append_nil] at hdone

/-- Nothing is handed out any more once the generation is cancelled. -/
theorem Hands.stop {before units : List GeneratedUnit} {value : α}
    (hcancel : interruption.cancelAt = some before.length) :
    Hands interruption before units value (.error .cancelled, ⟨before, []⟩) := by
  have hstopped : Hands interruption before units value
      (.error .cancelled, ⟨before ++ units.take 0, []⟩) :=
    .cancelled hcancel (Nat.zero_le _) nofun
  rwa [List.take_zero, List.append_nil] at hstopped

/-- A unit that is not taken is the last one. -/
theorem Hands.refuse {before units : List GeneratedUnit} {unit : GeneratedUnit} {value : α}
    {error : OutputError} (hopen : ∀ k, interruption.cancelAt = some k → before.length < k)
    (herror : interruption.errorAt? (before.length + 1) = some error) :
    Hands interruption before (unit :: units) value
      (.error (.output error), ⟨before, [unit]⟩) := by
  have hrefused : Hands interruption before (unit :: units) value
      (.error (.output error), ⟨before ++ (unit :: units).take 0, [unit]⟩) :=
    .refused (Nat.succ_pos _) herror hopen
  rwa [List.take_zero, List.append_nil] at hrefused

/-- A unit that is taken is followed by the others. -/
theorem Hands.cons {before units : List GeneratedUnit} {unit : GeneratedUnit} {value : α}
    {outcome : Except GenerateError α × Receipt}
    (hopen : ∀ k, interruption.cancelAt = some k → before.length < k)
    (haccepted : interruption.errorAt? (before.length + 1) = none)
    (h : Hands interruption (before ++ [unit]) units value outcome) :
    Hands interruption before (unit :: units) value outcome := by
  have hlength : ∀ n, (before ++ [unit]).length + n = before.length + (n + 1) := by
    intro n
    rw [List.length_append, List.length_singleton, Nat.add_assoc, Nat.add_comm 1]
  have hfirst : ∀ {taken : Nat},
      (∀ n < taken, interruption.errorAt? ((before ++ [unit]).length + n + 1) = none) →
      ∀ n < taken + 1, interruption.errorAt? (before.length + n + 1) = none := by
    intro taken hothers n hn
    cases n with
    | zero => exact haccepted
    | succ n =>
        rw [← hlength]
        exact hothers n (Nat.lt_of_succ_lt_succ hn)
  have hjoin : ∀ others : List GeneratedUnit,
      before ++ [unit] ++ others = before ++ unit :: others := by
    intro others
    rw [List.append_assoc, List.singleton_append]
  cases h with
  | completed hlater hothers =>
      rw [hjoin]
      refine .completed ?_ (hfirst hothers)
      intro k hk _
      cases units with
      | nil => exact hopen k hk
      | cons next units =>
          rw [List.length_cons, ← hlength]
          exact hlater k hk (List.cons_ne_nil _ _)
  | @cancelled taken hcancel htaken hothers =>
      rw [hlength] at hcancel
      rw [hjoin]
      exact .cancelled hcancel (Nat.succ_le_succ htaken) (hfirst hothers)
  | @refused taken error htaken herror hlater =>
      simp only [hlength] at herror hlater
      rw [hjoin]
      exact .refused (Nat.succ_lt_succ htaken) herror hlater

/-- The units of namespaces with content. -/
def unitsFor (units : List (String × List Piece)) : List GeneratedUnit :=
  units.map fun unit => .ofNamespace ⟨unit.1, Piece.items unit.2⟩

/-- The units of namespaces are handed out in the order in which they are generated at once. -/
theorem hands_sendNamespaces {model : ServiceModel} {namespaces : List (String × List TypeId)}
    {withRoutine final : List TypeId} {units : List (String × List Piece)}
    (hunits : model.unitsOf withRoutine namespaces = .ok (units, final))
    (before : List GeneratedUnit)
    (hstart : ∀ k, interruption.cancelAt = some k → before.length ≤ k) :
    Hands interruption before (unitsFor units) (final, before.length + units.length)
      (perform (interruption.channel.sendNamespaces model withRoutine before.length namespaces)
        ⟨before, []⟩) := by
  induction namespaces generalizing withRoutine units before with
  | nil =>
      cases hunits
      exact .nil
  | cons entry namespaces ih =>
      obtain ⟨name, roots⟩ := entry
      simp only [ServiceModel.unitsOf, bind_eq_ok_iff] at hunits
      obtain ⟨yielded, hyielded, ⟨later, _⟩, hlater, hresult⟩ := hunits
      cases hresult
      have hcheck := perform_checkpoint interruption ⟨before, []⟩
      rw [Channel.sendNamespaces]
      cases hcancelled : interruption.isCancelled before.length with
      | true =>
          simp only [hcancelled, if_true] at hcheck
          rw [perform_bind_of_error hcheck]
          exact .stop (cancelAt_of_isCancelled hcancelled hstart)
      | false =>
          simp only [hcancelled, Bool.false_eq_true, if_false] at hcheck
          have hopen := isCancelled_eq_false_iff.mp hcancelled
          rw [perform_bind_of_ok hcheck,
            perform_bind_of_ok (perform_yieldRoots hcancelled hyielded)]
          cases hempty : yielded.pieces.isEmpty with
          | true => exact ih hlater before hstart
          | false =>
              simp only [Bool.false_eq_true, if_false]
              cases herror : interruption.errorAt? (before.length + 1) with
              | some error =>
                  rw [perform_bind_of_error (perform_send_of_some herror)]
                  exact .refuse hopen herror
              | none =>
                  rw [perform_bind_of_ok (perform_send_of_none herror)]
                  have hrest :=
                    ih hlater (before ++ [.ofNamespace ⟨name, Piece.items yielded.pieces⟩])
                    (fun k hk => by
                      rw [List.length_append]
                      exact hopen k hk)
                  rw [List.length_append, List.length_singleton, Nat.add_assoc,
                    Nat.add_comm 1] at hrest
                  exact .cons hopen herror hrest

/-! ## Whole generations -/

/-- The units of an outline: those of its namespaces, and the root unit. -/
theorem units_of_generate {model : ServiceModel} {hook : ModuleHook} {units : List GeneratedUnit}
    (h : model.generate hook false = .ok units) :
    ∃ spaces withRoutine root, model.unitsOf [] model.namespaces = .ok (spaces, withRoutine) ∧
      model.levelRoutine withRoutine model.rootLevel = .ok root ∧
      units = unitsFor spaces ++ [.ofRoot root hook] := by
  rw [ServiceModel.generate] at h
  cases hprogram : model.synthesize hook false with
  | error error =>
      rw [hprogram] at h
      cases h
  | ok program =>
      rw [hprogram] at h
      cases h
      obtain ⟨outline, houtline, rfl⟩ := ServiceModel.exists_outline_of_synthesize hprogram
      obtain ⟨withRoutine, hspaces, hroot⟩ := ServiceModel.cases_of_outline houtline
      refine ⟨outline.units, withRoutine, outline.root, hspaces, hroot, ?_⟩
      simp [Program.generatedUnits, Outline.program, unitsFor]

/-- A generation that is not cancelled before it starts prepares its model and hands out its
units. -/
theorem generate_eq {settings : Settings} {declarations : List Declaration} {graph : TypeGraph}
    (hbuild : TypeGraph.build declarations = .ok graph)
    (hready : ((ServiceModel.ofGraph graph).prepare .empty).outcome = .ready)
    (interruption : Interruption) :
    interruption.generate settings declarations =
      if interruption.isCancelled 0 then (.failed .cancelled, {})
      else
        let prepared := (ServiceModel.ofGraph graph).prepare .empty
        let merged := settings.mergeDeclarations declarations
        let sent := perform (interruption.channel.sendAll prepared.model merged) {}
        (⟨prepared.delivered, sent.1.map fun emitted => ⟨merged, false, emitted⟩⟩, sent.2) := by
  unfold generate Channel.generate Channel.generateWith
  rw [hbuild]
  cases h : interruption.isCancelled 0 with
  | true =>
      have hasked : interruption.channel.cancelled.run {} = (true, {}) := by
        rw [← h]
        rfl
      simp only [StateT.run_bind, hasked, if_true]
      rfl
  | false =>
      have hasked : interruption.channel.cancelled.run {} = (false, {}) := by
        rw [← h]
        rfl
      simp only [StateT.run_bind, hasked, Bool.false_eq_true, if_false, hready]
      rfl

/-- How a generation of `units` that is interrupted may end, and what has become of its units. -/
structure Ends (interruption : Interruption) (units : List GeneratedUnit) (summary : RunSummary)
    (delivered : List Diagnostic) (outcome : Report RunSummary × Receipt) : Prop where
  /-- All units are taken, or a beginning of them without the root unit. -/
  cases :
    (outcome.1.result = .ok summary ∧ outcome.2 = ⟨units, []⟩) ∨
    (∃ k < units.length, interruption.cancelAt = some k ∧
      outcome.1.result = .error .cancelled ∧ outcome.2 = ⟨units.take k, []⟩) ∨
    ∃ taken error, ∃ htaken : taken < units.length,
      interruption.refusal = some (taken + 1, error) ∧
      outcome.1.result = .error (.output error) ∧ outcome.2 = ⟨units.take taken, [units[taken]]⟩
  /-- A generation ends where it is cancelled, at the latest in front of the next unit of a
  namespace. -/
  cancels : ∀ k, interruption.cancelAt = some k → k = 0 ∨ k + 1 < units.length →
    (∀ number error, interruption.refusal = some (number, error) → number = 0 ∨ k < number) →
    outcome.1.result = .error .cancelled
  /-- A generation ends at a unit that is not taken, unless it is cancelled before. -/
  fails : ∀ number error, interruption.refusal = some (number, error) → 0 < number →
    number ≤ units.length → (∀ k, interruption.cancelAt = some k → number ≤ k) →
    outcome.1.result = .error (.output error)
  /-- What is reported does not depend on when a generation ends. -/
  diagnostics : interruption.cancelAt ≠ some 0 → outcome.1.diagnostics = delivered

/-- The unit with a number is not taken if it is the one that is refused. -/
theorem errorAt?_eq_some_iff {number : Nat} {error : OutputError} :
    interruption.errorAt? number = some error ↔ interruption.refusal = some (number, error) := by
  rw [errorAt?, Option.map_eq_some_iff]
  constructor
  · intro hrefusal
    obtain ⟨⟨other, _⟩, hother, rfl⟩ := hrefusal
    obtain ⟨hother, hnumber⟩ := Option.filter_eq_some_iff.mp hother
    have hnumber : other = number := of_decide_eq_true hnumber
    rw [hother, hnumber]
  · intro hrefusal
    exact ⟨_, Option.filter_eq_some_iff.mpr ⟨hrefusal, decide_eq_true rfl⟩, rfl⟩

/-- The units with other numbers than the one that is refused are taken. -/
theorem ne_of_errorAt?_eq_none {number other : Nat} {error : OutputError}
    (h : interruption.errorAt? number = none)
    (hrefusal : interruption.refusal = some (other, error)) :
    other ≠ number := by
  rintro rfl
  rw [errorAt?_eq_some_iff.mpr hrefusal] at h
  cases h

variable {units : List GeneratedUnit} {summary : RunSummary} {delivered : List Diagnostic}

/-- The end of a generation whose units were all taken. -/
theorem Ends.of_completed
    (hopen : ∀ k, interruption.cancelAt = some k → 0 < k ∧ units.length ≤ k + 1)
    (haccepted : ∀ n < units.length, interruption.errorAt? (n + 1) = none) :
    interruption.Ends units summary delivered (⟨delivered, .ok summary⟩, ⟨units, []⟩) where
  cases := Or.inl ⟨rfl, rfl⟩
  cancels k hk hearly _ := by
    have hlate := hopen k hk
    omega
  fails number error hrefusal hpos hle _ := by
    have hother := ne_of_errorAt?_eq_none (haccepted (number - 1) (by omega)) hrefusal
    omega
  diagnostics _ := rfl

/-- The end of a generation that was cancelled. -/
theorem Ends.of_cancelled {k : Nat} {diagnostics : List Diagnostic}
    (hcancel : interruption.cancelAt = some k) (hk : k < units.length)
    (haccepted : ∀ n < k, interruption.errorAt? (n + 1) = none) (summary : RunSummary)
    (hdiagnostics : 0 < k → diagnostics = delivered) :
    interruption.Ends units summary delivered
      (⟨diagnostics, .error .cancelled⟩, ⟨units.take k, []⟩) where
  cases := Or.inr (Or.inl ⟨k, hk, hcancel, rfl, rfl⟩)
  cancels _ _ _ _ := rfl
  fails number error hrefusal hpos _ hlate := by
    have hle := hlate k hcancel
    have hother := ne_of_errorAt?_eq_none (haccepted (number - 1) (by omega)) hrefusal
    omega
  diagnostics hlater := by
    refine hdiagnostics (Nat.pos_of_ne_zero ?_)
    rintro rfl
    exact hlater hcancel

/-- The end of a generation one of whose units was not taken. -/
theorem Ends.of_refused {taken : Nat} {error : OutputError} (htaken : taken < units.length)
    (herror : interruption.errorAt? (taken + 1) = some error)
    (hopen : ∀ k, interruption.cancelAt = some k → 0 < k ∧ (taken < k ∨ units.length ≤ k + 1))
    (summary : RunSummary) (delivered : List Diagnostic) :
    interruption.Ends units summary delivered
      (⟨delivered, .error (.output error)⟩, ⟨units.take taken, [units[taken]]⟩) where
  cases := Or.inr (Or.inr ⟨taken, error, htaken, errorAt?_eq_some_iff.mp herror, rfl, rfl⟩)
  cancels k hk hearly hrefusals := by
    have hlate := hopen k hk
    have hrefusal := hrefusals _ _ (errorAt?_eq_some_iff.mp herror)
    omega
  fails number other hrefusal _ _ _ := by
    have heq := (errorAt?_eq_some_iff.mp herror).symm.trans hrefusal
    cases heq
    rfl
  diagnostics _ := rfl

variable {root : GeneratedUnit}

/-- There is one unit more than those of namespaces. -/
theorem length_append_root (units : List GeneratedUnit) (root : GeneratedUnit) :
    (units ++ [root]).length = units.length + 1 := by
  rw [List.length_append, List.length_singleton]

/-- When the units of all namespaces have been taken, the root unit is the last one or is not
taken. -/
theorem Ends.of_completed_namespaces
    (hopen : ∀ k, interruption.cancelAt = some k → 0 < k ∧ units.length ≤ k)
    (haccepted : ∀ n < units.length, interruption.errorAt? (n + 1) = none) (root : GeneratedUnit)
    (summary : RunSummary) (delivered : List Diagnostic) :
    interruption.Ends (units ++ [root]) summary delivered
      (match interruption.errorAt? (units.length + 1) with
        | none => (⟨delivered, .ok summary⟩, ⟨units ++ [root], []⟩)
        | some error => (⟨delivered, .error (.output error)⟩, ⟨units, [root]⟩)) := by
  have hlate : ∀ k, interruption.cancelAt = some k → 0 < k ∧ (units ++ [root]).length ≤ k + 1 := by
    intro k hk
    rw [length_append_root]
    exact ⟨(hopen k hk).1, Nat.succ_le_succ (hopen k hk).2⟩
  cases herror : interruption.errorAt? (units.length + 1) with
  | none =>
      refine .of_completed hlate ?_
      intro n hn
      rw [length_append_root] at hn
      cases Nat.lt_succ_iff_lt_or_eq.mp hn with
      | inl hbefore => exact haccepted n hbefore
      | inr hlast => rwa [hlast]
  | some error =>
      have htaken := Nat.lt_of_lt_of_eq (Nat.lt_succ_self _) (length_append_root units root).symm
      have hends := Ends.of_refused htaken herror
        (fun k hk => ⟨(hlate k hk).1, Or.inr (hlate k hk).2⟩) summary delivered
      simpa using hends

/-- When a generation is cancelled among the units of namespaces, the root unit is not handed
out. -/
theorem Ends.of_cancelled_namespaces {taken : Nat} (hcancel : interruption.cancelAt = some taken)
    (htaken : taken ≤ units.length) (haccepted : ∀ n < taken, interruption.errorAt? (n + 1) = none)
    (root : GeneratedUnit) (summary : RunSummary) (delivered : List Diagnostic) :
    interruption.Ends (units ++ [root]) summary delivered
      (⟨delivered, .error .cancelled⟩, ⟨units.take taken, []⟩) := by
  have hlast := Nat.lt_of_lt_of_eq (Nat.lt_succ_of_le htaken) (length_append_root units root).symm
  have hends := Ends.of_cancelled hcancel hlast haccepted summary (fun _ => Eq.refl delivered)
  rwa [List.take_append_of_le_length htaken] at hends

/-- When a unit of a namespace is not taken, the root unit is not handed out. -/
theorem Ends.of_refused_namespaces {taken : Nat} {error : OutputError}
    (htaken : taken < units.length)
    (herror : interruption.errorAt? (taken + 1) = some error)
    (hopen : ∀ k, interruption.cancelAt = some k → 0 < k ∧ taken < k) (root : GeneratedUnit)
    (summary : RunSummary) (delivered : List Diagnostic) :
    interruption.Ends (units ++ [root]) summary delivered
      (⟨delivered, .error (.output error)⟩, ⟨units.take taken, [units[taken]]⟩) := by
  have hlast := Nat.lt_of_lt_of_eq (Nat.lt_succ_of_lt htaken) (length_append_root units root).symm
  have hends := Ends.of_refused hlast herror
    (fun k hk => ⟨(hopen k hk).1, Or.inl (hopen k hk).2⟩) summary delivered
  rwa [List.take_append_of_le_length (Nat.le_of_lt htaken),
    List.getElem_append_left htaken] at hends

/-- When the units of all namespaces have been taken, the root unit follows. -/
theorem perform_sendAll_of_ok {model : ServiceModel} {settings : Settings}
    {withRoutine : List TypeId} {emitted : Nat} {root : Routine} {receipt : Receipt}
    (hspaces : perform (interruption.channel.sendNamespaces model [] 0 model.namespaces) {} =
      (.ok (withRoutine, emitted), receipt))
    (hroot : model.levelRoutine withRoutine model.rootLevel = .ok root) :
    perform (interruption.channel.sendAll model settings) {} =
      match interruption.errorAt? (receipt.taken.length + 1) with
      | none => (.ok (emitted + 1),
          { receipt with taken := receipt.taken ++ [.ofRoot root settings.hook] })
      | some error => (.error (.output error),
          { receipt with refused := receipt.refused ++ [.ofRoot root settings.hook] }) := by
  rw [Channel.sendAll, perform_bind_of_ok hspaces, perform_bind_of_ok (perform_lift hroot _)]
  cases herror : interruption.errorAt? (receipt.taken.length + 1) with
  | none =>
      rw [perform_bind_of_ok (perform_send_of_none herror)]
      rfl
  | some error => rw [perform_bind_of_error (perform_send_of_some herror)]

/-- When handing out the units of namespaces ends early, no root unit follows. -/
theorem perform_sendAll_of_error {model : ServiceModel} {settings : Settings}
    {error : GenerateError} {receipt : Receipt}
    (hspaces : perform (interruption.channel.sendNamespaces model [] 0 model.namespaces) {} =
      (.error error, receipt)) :
    perform (interruption.channel.sendAll model settings) {} = (.error error, receipt) := by
  rw [Channel.sendAll, perform_bind_of_error hspaces]

/-- Handing out the units of a model that is not cancelled at its start ends as `Ends` says. -/
theorem ends_of_sendAll {model : ServiceModel} {settings : Settings}
    {spaces : List (String × List Piece)} {withRoutine : List TypeId} {root : Routine}
    (hspaces : model.unitsOf [] model.namespaces = .ok (spaces, withRoutine))
    (hroot : model.levelRoutine withRoutine model.rootLevel = .ok root)
    (hstarted : ∀ k, interruption.cancelAt = some k → 0 < k) (delivered : List Diagnostic) :
    interruption.Ends (unitsFor spaces ++ [.ofRoot root settings.hook])
      ⟨settings, false, (unitsFor spaces).length + 1⟩ delivered
      (⟨delivered, (perform (interruption.channel.sendAll model settings) {}).1.map
          fun emitted => ⟨settings, false, emitted⟩⟩,
        (perform (interruption.channel.sendAll model settings) {}).2) := by
  have hhands : interruption.Hands [] (unitsFor spaces) (withRoutine, 0 + spaces.length) _ :=
    hands_sendNamespaces hspaces [] (fun _ _ => Nat.zero_le _)
  have hlength : (unitsFor spaces).length = spaces.length := List.length_map _
  generalize hsent : perform (interruption.channel.sendNamespaces _ [] _ _) _ = sent at hhands
  rw [List.length_nil] at hsent
  cases hhands with
  | completed hopen haccepted =>
      simp only [List.length_nil, List.nil_append, Nat.zero_add] at hsent hopen haccepted
      have hlate : ∀ k, interruption.cancelAt = some k → 0 < k ∧ (unitsFor spaces).length ≤ k := by
        intro k hk
        refine ⟨hstarted k hk, ?_⟩
        by_cases hempty : unitsFor spaces = []
        · rw [hempty]
          exact Nat.zero_le k
        · exact hopen k hk hempty
      have hends := Ends.of_completed_namespaces hlate haccepted
        (.ofRoot root settings.hook) ⟨settings, false, (unitsFor spaces).length + 1⟩ delivered
      rw [perform_sendAll_of_ok hsent hroot]
      cases herror : interruption.errorAt? ((unitsFor spaces).length + 1) with
      | none =>
          rw [herror] at hends
          rwa [hlength] at hends ⊢
      | some error =>
          rw [herror] at hends
          exact hends
  | cancelled hcancel htaken haccepted =>
      simp only [List.length_nil, Nat.zero_add] at hcancel haccepted
      rw [perform_sendAll_of_error hsent]
      exact .of_cancelled_namespaces hcancel htaken haccepted _ _ _
  | refused htaken herror hopen =>
      simp only [List.length_nil, Nat.zero_add] at herror hopen
      rw [perform_sendAll_of_error hsent]
      exact .of_refused_namespaces htaken herror (fun k hk => ⟨hstarted k hk, hopen k hk⟩) _ _ _

/-- A generation that is interrupted ends as `Ends` says, and reports what its preparation has. -/
theorem ends_of_generate {settings : Settings} {declarations : List Declaration}
    {graph : TypeGraph} (hbuild : TypeGraph.build declarations = .ok graph)
    (hready : ((ServiceModel.ofGraph graph).prepare .empty).outcome = .ready)
    (hunits : ((ServiceModel.ofGraph graph).prepare .empty).model.generate
      (settings.mergeDeclarations declarations).hook false = .ok units)
    (interruption : Interruption) :
    interruption.Ends units ⟨settings.mergeDeclarations declarations, false, units.length⟩
      ((ServiceModel.ofGraph graph).prepare .empty).delivered
      (interruption.generate settings declarations) := by
  obtain ⟨spaces, withRoutine, root, hspaces, hroot, rfl⟩ := units_of_generate hunits
  rw [generate_eq hbuild hready]
  rw [List.length_append, List.length_singleton]
  cases hearly : interruption.isCancelled 0 with
  | true =>
      have hcancel := cancelAt_of_isCancelled hearly (fun _ _ => Nat.zero_le _)
      rw [if_pos rfl]
      refine .of_cancelled hcancel ?_ nofun _ nofun
      rw [List.length_append, List.length_singleton]
      exact Nat.succ_pos _
  | false =>
      rw [if_neg Bool.false_ne_true]
      exact ends_of_sendAll hspaces hroot (isCancelled_eq_false_iff.mp hearly) _

/-- A generation that is interrupted hands out a beginning of the units that are generated at
once, up to where it is cancelled or a unit is not taken; the root unit comes last or not at all.
What is reported is the same as without an interruption. -/
theorem generate_interrupted {settings : Settings} {declarations : List Declaration}
    {graph : TypeGraph} {units : List GeneratedUnit}
    (hbuild : TypeGraph.build declarations = .ok graph)
    (hready : ((ServiceModel.ofGraph graph).prepare .empty).outcome = .ready)
    (hunits : ((ServiceModel.ofGraph graph).prepare .empty).model.generate
      (settings.mergeDeclarations declarations).hook false = .ok units)
    (interruption : Interruption) :
    interruption.Ends units ⟨settings.mergeDeclarations declarations, false, units.length⟩
      (({} : Interruption).generate settings declarations).1.diagnostics
      (interruption.generate settings declarations) := by
  have hundisturbed := (ends_of_generate hbuild hready hunits {}).diagnostics nofun
  rw [hundisturbed]
  exact ends_of_generate hbuild hready hunits interruption

/-- A service in each of two namespaces. -/
def twoNamespaces : List Declaration :=
  [{ (Declaration.ofPath .interface "A" "IFirst").marked with
      interfaces := [⟨baseInterfaceName, [], ""⟩] },
   { (Declaration.ofPath .interface "B" "ISecond").marked with
      interfaces := [⟨baseInterfaceName, [], ""⟩] }]

/-- The graph of `twoNamespaces`. -/
def twoNamespacesGraph : TypeGraph :=
  ⟨[⟨twoNamespaces[0], none, 0⟩, ⟨twoNamespaces[1], none, 1⟩]⟩

/-- Each of the namespaces has a unit, and there is the root unit behind them. -/
theorem exists_units_twoNamespaces :
    ∃ first second root,
      ((ServiceModel.ofGraph twoNamespacesGraph).prepare .empty).model.generate
        (({} : Settings).mergeDeclarations twoNamespaces).hook false =
          .ok [first, second, root] := by
  have hcount : (((ServiceModel.ofGraph twoNamespacesGraph).prepare .empty).model.generate
      (({} : Settings).mergeDeclarations twoNamespaces).hook false).toOption.map List.length =
      some 3 := by
    decide +kernel
  cases hunits : ((ServiceModel.ofGraph twoNamespacesGraph).prepare .empty).model.generate
      (({} : Settings).mergeDeclarations twoNamespaces).hook false with
  | error error =>
      rw [hunits] at hcount
      cases hcount
  | ok units =>
      rw [hunits] at hcount
      obtain ⟨first, second, root, rfl⟩ := List.length_eq_three.mp (Option.some.inj hcount)
      exact ⟨first, second, root, rfl⟩

/-- These declarations have three units. A generation that is cancelled behind the first one has
handed out that one only. Where the second one is not taken, that is the error, and the first one
stays. -/
theorem generate_twoNamespaces :
    TypeGraph.build twoNamespaces = .ok twoNamespacesGraph ∧
      ∃ first second root,
        (({} : Interruption).generate {} twoNamespaces).2 = ⟨[first, second, root], []⟩ ∧
        (let outcome := ({ cancelAt := some 1 } : Interruption).generate {} twoNamespaces
        outcome.1.result = .error .cancelled ∧ outcome.2 = ⟨[first], []⟩) ∧
        let outcome := ({ refusal := some (2, ⟨"out"⟩) } : Interruption).generate {} twoNamespaces
        outcome.1.result = .error (.output ⟨"out"⟩) ∧ outcome.2 = ⟨[first], [second]⟩ := by
  have hbuild : TypeGraph.build twoNamespaces = .ok twoNamespacesGraph := by rfl
  have hready : ((ServiceModel.ofGraph twoNamespacesGraph).prepare .empty).outcome = .ready :=
    ServiceModel.outcome_prepare_of_all (by decide)
  obtain ⟨first, second, root, hunits⟩ := exists_units_twoNamespaces
  refine ⟨hbuild, first, second, root, ?_, ?_, ?_⟩
  · obtain ⟨_, hdone⟩ | ⟨_, _, hcancel, _⟩ | ⟨_, _, _, hrefusal, _⟩ :=
      (generate_interrupted hbuild hready hunits {}).cases
    · exact hdone
    · cases hcancel
    · cases hrefusal
  · have hends := generate_interrupted hbuild hready hunits { cancelAt := some 1 }
    have hcancelled := hends.cancels 1 rfl (Or.inr (Nat.lt_succ_self _)) nofun
    refine ⟨hcancelled, ?_⟩
    obtain ⟨hok, _⟩ | ⟨_, _, hcancel, _, hreceipt⟩ | ⟨_, _, _, hrefusal, _⟩ := hends.cases
    · rw [hcancelled] at hok
      cases hok
    · cases hcancel
      exact hreceipt
    · cases hrefusal
  · have hends := generate_interrupted hbuild hready hunits { refusal := some (2, ⟨"out"⟩) }
    have hfails := hends.fails 2 ⟨"out"⟩ rfl Nat.two_pos (Nat.le_succ _) nofun
    refine ⟨hfails, ?_⟩
    obtain ⟨hok, _⟩ | ⟨_, _, hcancel, _⟩ | ⟨_, _, _, hrefusal, _, hreceipt⟩ := hends.cases
    · rw [hfails] at hok
      cases hok
    · cases hcancel
    · cases hrefusal
      exact hreceipt

end Interruption
end RadioBroker
