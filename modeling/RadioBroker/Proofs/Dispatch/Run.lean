import RadioBroker.Proofs.Dispatch.Body
import RadioBroker.Proofs.Dispatch.Loop

/-!
# Runs of dispatch bodies

What the body of each dispatch kind does to a snapshot. The loop of a body keeps a function of the
replies it gets: nothing, the values among them, or all of them. No body ever gets stuck.
-/

namespace RadioBroker.Dispatch

variable {α : Type} [Inhabited α]

/-! ## Buffers -/

/-- A buffer of a fixed length that is filled from the front. -/
def padded {β : Type} (size : Nat) (filler : β) (values : List β) : List β :=
  values ++ List.replicate (size - values.length) filler

@[simp] theorem padded_nil {β : Type} (size : Nat) (filler : β) :
    padded size filler [] = List.replicate size filler := rfl

/-- As long as there is room, a buffer is filled at its next slot. -/
theorem store_padded {β : Type} {size : Nat} {values : List β} (filler value : β)
    (h : values.length < size) :
    store (padded size filler values) values.length value =
      .ok (padded size filler (values ++ [value])) := by
  have hroom : size - values.length = size - (values.length + 1) + 1 := by omega
  have hlength : values.length < (padded size filler values).length := by
    simp only [padded, List.length_append, List.length_replicate]
    omega
  rw [store, if_pos hlength, padded, padded, List.length_append, List.length_singleton, hroom,
    List.replicate_succ, List.set_append_right _ _ (Nat.le_refl _), Nat.sub_self]
  simp

/-- A buffer cut down to what was filled holds that and nothing else. -/
theorem take_padded {β : Type} {size : Nat} {filler : β} {values : List β} :
    (padded size filler values).take values.length = values := by
  simp [padded]

/-- A full buffer holds nothing else either. -/
theorem padded_of_full {β : Type} {size : Nat} {filler : β} {values : List β}
    (h : size ≤ values.length) : padded size filler values = values := by
  simp [padded, Nat.sub_eq_zero_of_le h]

/-! ## What loops keep -/

/-- The values among replies. -/
def valuesOf (replies : List (Reply α)) : List α := replies.filterMap Prod.snd

/-- The machine behind calls whose answers are dropped. -/
def keptNothing (_ : List (Reply α)) : Machine α := { first := default }

/-- The machine behind calls whose values are kept. -/
def keptValues (hint : Nat) (replies : List (Reply α)) : Machine α where
  first := (valuesOf replies).head?.getD default
  count := (valuesOf replies).length
  invocations := replies.length
  results :=
    if (valuesOf replies).length ≤ 1 then none
    else some (padded hint default (valuesOf replies))

/-- The machine behind calls whose pending operations are kept. -/
def keptPending (hint : Nat) (replies : List (Reply α)) : Machine α where
  first := default
  count := replies.length
  pending := padded hint none (replies.map some)

open Machine

/-- The loop body that drops answers. -/
theorem sweeps_invoke (snapshot : Snapshot α) (call : Call) :
    Sweeps (execute snapshot [.invoke call]) (fun _ => false) keptNothing where
  leave _ _ _ hfull := by cases hfull
  call _ _ _ _ := rfl

/-- The loop body that keeps pending operations. -/
theorem sweeps_collectPending (snapshot : Snapshot α) (call : Call) :
    Sweeps (execute snapshot [.breakIfFull .stored, .collectPending call])
      (fun called => decide (snapshot.hint ≤ called)) (keptPending snapshot.hint) where
  leave replies touched reply hfull := by
    have hreached : snapshot.hint ≤ replies.length := of_decide_eq_true hfull
    simp [execute, step, arrived, keptPending, hreached, bind, Except.bind]
  call replies touched reply hroom := by
    have hreached : ¬ snapshot.hint ≤ replies.length := of_decide_eq_false hroom
    have hroom : (replies.map some).length < snapshot.hint := by
      rw [List.length_map]
      omega
    have hstore := store_padded none (some reply) hroom
    rw [List.length_map] at hstore
    simp [execute, step, arrived, keptPending, hreached, bind, Except.bind, Machine.call, hstore]

/-- Keeping one more value keeps all values so far. -/
theorem keepValue_keptValues {hint : Nat} {replies : List (Reply α)} (touched : List Touch)
    (current : Option (Reply α)) (position : Nat) (value : α) (hroom : replies.length < hint) :
    ({ (keptValues hint replies).arrived touched current with
        invocations := replies.length + 1 } : Machine α).keepValue hint value =
      .ok ((keptValues hint (replies ++ [(position, some value)])).arrived touched current) := by
  have hvalues : valuesOf (replies ++ [(position, some value)]) = valuesOf replies ++ [value] := by
    simp [valuesOf]
  have hcount : (valuesOf replies).length < hint :=
    Nat.lt_of_le_of_lt (List.length_filterMap_le _ _) hroom
  unfold keepValue keptValues
  rw [hvalues]
  -- The first value has its slot, the second one makes the buffer, the others find it.
  match hkept : valuesOf replies with
  | [] => simp [arrived]
  | [first] =>
      rw [hkept] at hcount
      have hfresh : store (List.replicate hint default) 0 first =
          .ok (padded hint default [first]) :=
        @store_padded α hint [] default first (Nat.zero_lt_of_lt hcount)
      have hstore : store (padded hint default [first]) 1 value =
          .ok (padded hint default [first, value]) := store_padded default value hcount
      simp [arrived, hfresh, hstore, bind, Except.bind]
  | first :: second :: rest =>
      rw [hkept] at hcount
      have hstore := store_padded default value hcount
      simp only [List.length_cons] at hstore
      simp [arrived, hstore, bind, Except.bind]

/-- The loop body that keeps values. -/
theorem sweeps_collectResult (snapshot : Snapshot α) (call : Call) :
    Sweeps (execute snapshot [.breakIfFull .invoked, .countInvocation, .collectResult call])
      (fun called => decide (snapshot.hint ≤ called)) (keptValues snapshot.hint) where
  leave replies touched reply hfull := by
    have hreached : snapshot.hint ≤ replies.length := of_decide_eq_true hfull
    simp [execute, step, arrived, keptValues, hreached, bind, Except.bind]
  call replies touched reply hroom := by
    have hreached : ¬ snapshot.hint ≤ replies.length := of_decide_eq_false hroom
    -- A subscriber without a value is counted as called, but keeps nothing.
    obtain ⟨position, answer⟩ := reply
    cases answer with
    | none =>
        have hvalues : valuesOf (replies ++ [(position, none)]) = valuesOf replies := by
          simp [valuesOf]
        simp [execute, step, arrived, keptValues, hreached, bind, Except.bind, Machine.call,
          hvalues]
    | some value =>
        have hkeep := keepValue_keptValues (touched ++ [.invoked position])
          (some (position, some value)) position value (Nat.lt_of_not_le hreached)
        simp only [arrived, keptValues] at hkeep
        simp [execute, step, arrived, keptValues, hreached, bind, Except.bind, Machine.call, hkeep]

/-! ## Runs -/

/-- The replies that a loop gets from a snapshot. -/
def Snapshot.replies (snapshot : Snapshot α) (full : Nat → Bool) : List (Reply α) :=
  repliesFrom full 0 snapshot.entries.zipIdx

/-- What a loop does to the entries of a snapshot. -/
def Snapshot.touches (snapshot : Snapshot α) (full : Nat → Bool) : List Touch :=
  touchesFrom full 0 snapshot.entries.zipIdx

/-- A statement that hands over is followed by the others. -/
theorem execute_cons {snapshot : Snapshot α} {statement : Statement} {statements : List Statement}
    {machine next : Machine α} (h : step snapshot statement machine = .ok (next, .next)) :
    execute snapshot (statement :: statements) machine = execute snapshot statements next := by
  rw [execute, h]
  rfl

/-- A statement on its own hands over as it does among others. -/
theorem execute_singleton (snapshot : Snapshot α) (statement : Statement) (machine : Machine α) :
    execute snapshot [statement] machine = step snapshot statement machine := by
  rw [execute]
  cases step snapshot statement machine with
  | error fault => rfl
  | ok stepped =>
      obtain ⟨next, flow⟩ := stepped
      cases flow <;> rfl

/-- Where several answers are kept, a branch on their number takes the last way. -/
theorem step_byCount_many {snapshot : Snapshot α} {machine : Machine α}
    (zero one many : List Statement) (h : 1 < machine.count) :
    step snapshot (.byCount zero one many) machine = execute snapshot many machine := by
  obtain ⟨rest, hcount⟩ : ∃ rest, machine.count = rest + 2 := ⟨machine.count - 2, by omega⟩
  rw [step, hcount]
  rfl

/-- What a loop does to a snapshot. -/
theorem step_forEachLive {snapshot : Snapshot α} {body : List Statement} {full : Nat → Bool}
    {kept : List (Reply α) → Machine α} (h : Sweeps (execute snapshot body) full kept)
    (hstart : (kept []).arrived [] none = kept []) :
    step snapshot (.forEachLive body) (kept []) =
      .ok ((kept (snapshot.replies full)).arrived (snapshot.touches full) none, .next) := by
  have hloop := h.overEntries_eq snapshot.entries.zipIdx [] [] none
  rw [hstart] at hloop
  rw [step]
  exact hloop

/-- The result of values: none, one, or several. -/
def resultOf : List α → Outcome α
  | [] => .empty
  | [value] => .one value
  | values => .many values

/-- The result of the replies to pending operations; where there are several, the default stands for
those that yield nothing. -/
def awaitedResultOf : List (Reply α) → Outcome α
  | [] => .empty
  | [reply] => resultOf reply.2.toList
  | replies => .many ((replies.map Prod.snd).map fun value => value.getD default)

/-- When a loop stops at the hint. -/
def Snapshot.atHint (snapshot : Snapshot α) (called : Nat) : Bool :=
  decide (snapshot.hint ≤ called)

/-- A run answers what its body hands over with. -/
theorem run_of_ok {snapshot : Snapshot α} {body : List Statement} {machine : Machine α}
    {flow : Flow α} (h : execute snapshot body { first := default } = .ok (machine, flow)) :
    snapshot.run body = .ok (machine, flow.outcome) := by
  rw [Snapshot.run, h]
  rfl

theorem step_takeSnapshot (snapshot : Snapshot α) (machine : Machine α) :
    step snapshot .takeSnapshot machine = .ok (machine, .next) := rfl

/-- No value is kept yet when the buffer of values is declared. -/
theorem step_declareResults (snapshot : Snapshot α) (result : TypeExpr) :
    step snapshot (.declareResults result) { first := default } =
      .ok (keptValues snapshot.hint [], .next) := rfl

/-- No pending operation is kept yet when their buffer is declared. -/
theorem step_declarePending (snapshot : Snapshot α) (element : TypeExpr) :
    step snapshot (.declarePending element) { first := default } =
      .ok (keptPending snapshot.hint [], .next) := rfl

/-- A run that drops answers calls all subscribers. -/
theorem run_void (snapshot : Snapshot α) (call : Call) :
    ∃ machine, snapshot.run [.takeSnapshot, .forEachLive [.invoke call]] = .ok (machine, .done) ∧
      machine.touched = snapshot.touches fun _ => false := by
  have hloop := step_forEachLive (sweeps_invoke snapshot call) rfl
  have hexecute : execute snapshot [.takeSnapshot, .forEachLive [.invoke call]] (keptNothing []) =
      .ok ((keptNothing (snapshot.replies fun _ => false)).arrived
        (snapshot.touches fun _ => false) none, .next) := by
    rw [execute_cons (step_takeSnapshot _ _), execute_cons hloop]
    rfl
  exact ⟨_, run_of_ok hexecute, rfl⟩

/-! ### Values -/

/-- What the buffer of values holds in the end, when it was made. -/
theorem results_shrink (hint : Nat) (replies : List (Reply α)) (touched : List Touch)
    (h : 1 < (valuesOf replies).length) :
    (((keptValues hint replies).arrived touched none).shrink hint .results).results =
      some (valuesOf replies) := by
  have hmade : ¬ (valuesOf replies).length ≤ 1 := Nat.not_le_of_lt h
  by_cases hroom : (valuesOf replies).length < hint
  · simp [shrink, keptValues, arrived, hroom, hmade, take_padded]
  · simp [shrink, keptValues, arrived, hroom, hmade, padded_of_full (Nat.le_of_not_lt hroom)]

/-- The answer of a body that has kept values. -/
theorem execute_answer_values (snapshot : Snapshot α) (replies : List (Reply α))
    (touched : List Touch) :
    ∃ machine, execute snapshot
        [.byCount [.finish (some .default)] [.finish (some .wrapFirst)]
          [.shrinkToCount .results, .finish (some .wrapResults)]]
        ((keptValues snapshot.hint replies).arrived touched none) =
        .ok (machine, .finished (resultOf (valuesOf replies))) ∧ machine.touched = touched := by
  match hvalues : valuesOf replies with
  | [] =>
      refine ⟨(keptValues snapshot.hint replies).arrived touched none, ?_, rfl⟩
      simp [execute, step, arrived, keptValues, hvalues, answer, bind, Except.bind, resultOf]
  | [value] =>
      refine ⟨(keptValues snapshot.hint replies).arrived touched none, ?_, rfl⟩
      simp [execute, step, arrived, keptValues, hvalues, answer, bind, Except.bind, resultOf]
  | first :: second :: rest =>
      have hresults := results_shrink snapshot.hint replies touched (by simp [hvalues])
      have hmany : 1 < ((keptValues snapshot.hint replies).arrived touched none).count := by
        show 1 < (valuesOf replies).length
        simp [hvalues]
      refine ⟨
        ((keptValues snapshot.hint replies).arrived touched none).shrink snapshot.hint .results,
        ?_, touched_shrink _ _ _⟩
      rw [execute_singleton, step_byCount_many _ _ _ hmany, execute_cons rfl, execute_singleton,
        step, answer, hresults, hvalues]
      rfl

/-- A run that keeps values answers with them. -/
theorem run_singleResult (snapshot : Snapshot α) (call : Call) (result : TypeExpr) :
    ∃ machine, snapshot.run
        [.takeSnapshot, .declareResults result,
          .forEachLive [.breakIfFull .invoked, .countInvocation, .collectResult call],
          .byCount [.finish (some .default)] [.finish (some .wrapFirst)]
            [.shrinkToCount .results, .finish (some .wrapResults)]] =
        .ok (machine, resultOf (valuesOf (snapshot.replies snapshot.atHint))) ∧
      machine.touched = snapshot.touches snapshot.atHint := by
  have hloop := step_forEachLive (sweeps_collectResult snapshot call) rfl
  obtain ⟨machine, hanswer, htouched⟩ := execute_answer_values snapshot
    (snapshot.replies snapshot.atHint) (snapshot.touches snapshot.atHint)
  have hbody := execute_cons (step_takeSnapshot snapshot { first := default }) |>.trans <|
    execute_cons (step_declareResults snapshot result) |>.trans <|
    execute_cons hloop |>.trans hanswer
  exact ⟨machine, run_of_ok hbody, htouched⟩

/-! ### Pending operations -/

/-- What the buffer of pending operations holds in the end: the replies, and no slot left over. -/
theorem pending_shrink (hint : Nat) (replies : List (Reply α)) (touched : List Touch) :
    (((keptPending hint replies).arrived touched none).shrink hint .pending).pending =
      replies.map some := by
  by_cases hroom : replies.length < hint
  · have htake := @take_padded (Option (Reply α)) hint none (replies.map some)
    rw [List.length_map] at htake
    simp [shrink, keptPending, arrived, hroom, htake]
  · have hfull : hint ≤ (replies.map some).length := by
      rw [List.length_map]
      exact Nat.le_of_not_lt hroom
    simp [shrink, keptPending, arrived, hroom, padded_of_full hfull]

/-- Waiting for all replies, once their buffer is cut down. -/
theorem takeAll_shrink (hint : Nat) (replies : List (Reply α)) (touched : List Touch) :
    ∃ machine, (((keptPending hint replies).arrived touched none).shrink hint .pending).takeAll =
        .ok (machine, replies.map Prod.snd) ∧
      machine.touched = touched ∧ machine.awaited = replies.map Prod.fst := by
  refine ⟨_, takeAll_eq (pending_shrink hint replies touched), touched_shrink _ _ _, ?_⟩
  show (shrink _ _ _).awaited ++ _ = _
  rw [awaited_shrink]
  rfl

/-- The end of a body that waits for its pending operations and answers nothing. -/
theorem execute_awaiting (snapshot : Snapshot α) (replies : List (Reply α))
    (touched : List Touch) :
    ∃ machine flow, execute snapshot
        [.byCount [.finish none] [.awaitFirst] [.shrinkToCount .pending, .awaitAll]]
        ((keptPending snapshot.hint replies).arrived touched none) = .ok (machine, flow) ∧
      flow.outcome = .done ∧ machine.touched = touched ∧
      machine.awaited = replies.map Prod.fst := by
  match replies with
  | [] => exact ⟨_, .finished .done, rfl, rfl, rfl, rfl⟩
  | [reply] => exact ⟨_, .next, rfl, rfl, rfl, rfl⟩
  | first :: second :: rest =>
      obtain ⟨machine, htake, htouched, hawaited⟩ :=
        takeAll_shrink snapshot.hint (first :: second :: rest) touched
      have hmany : 1 < ((keptPending snapshot.hint (first :: second :: rest)).arrived touched
          none).count := Nat.le_add_left 2 rest.length
      refine ⟨machine, .next, ?_, rfl, htouched, hawaited⟩
      rw [execute_singleton, step_byCount_many _ _ _ hmany,
        execute_cons rfl, execute_singleton, step, htake]
      rfl

/-- The end of a body that waits for its pending operations and answers with what they yield. -/
theorem execute_answer_awaited (snapshot : Snapshot α) (replies : List (Reply α))
    (touched : List Touch) :
    ∃ machine, execute snapshot
        [.byCount [.finish (some .default)] [.finish (some .awaitFirst)]
          [.shrinkToCount .pending, .finish (some .awaitAllUnwrapped)]]
        ((keptPending snapshot.hint replies).arrived touched none) =
        .ok (machine, .finished (awaitedResultOf replies)) ∧
      machine.touched = touched ∧ machine.awaited = replies.map Prod.fst := by
  match replies with
  | [] => exact ⟨_, rfl, rfl, rfl⟩
  | [(position, none)] => exact ⟨_, rfl, rfl, rfl⟩
  | [(position, some value)] => exact ⟨_, rfl, rfl, rfl⟩
  | first :: second :: rest =>
      obtain ⟨machine, htake, htouched, hawaited⟩ :=
        takeAll_shrink snapshot.hint (first :: second :: rest) touched
      have hmany : 1 < ((keptPending snapshot.hint (first :: second :: rest)).arrived touched
          none).count := Nat.le_add_left 2 rest.length
      refine ⟨machine, ?_, htouched, hawaited⟩
      rw [execute_singleton, step_byCount_many _ _ _ hmany,
        execute_cons rfl, execute_singleton, step, answer, htake]
      rfl

/-- A run that keeps pending operations ends as its ending does on what was kept. -/
theorem run_gathering (snapshot : Snapshot α) (call : Call) (element : TypeExpr)
    {ending : List Statement} {machine : Machine α} {flow : Flow α}
    (h : execute snapshot ending
      ((keptPending snapshot.hint (snapshot.replies snapshot.atHint)).arrived
        (snapshot.touches snapshot.atHint) none) = .ok (machine, flow)) :
    snapshot.run
        (.takeSnapshot :: .declarePending element ::
          .forEachLive [.breakIfFull .stored, .collectPending call] :: ending) =
      .ok (machine, flow.outcome) := by
  have hloop := step_forEachLive (sweeps_collectPending snapshot call) rfl
  refine run_of_ok ?_
  rw [execute_cons (step_takeSnapshot _ _), execute_cons (step_declarePending _ _),
    execute_cons hloop]
  exact h

/-- A run that keeps pending operations, and answers nothing, waits for each of them once. -/
theorem run_asyncVoid (snapshot : Snapshot α) (call : Call) (element : TypeExpr) :
    ∃ machine, snapshot.run
        [.takeSnapshot, .declarePending element,
          .forEachLive [.breakIfFull .stored, .collectPending call],
          .byCount [.finish none] [.awaitFirst] [.shrinkToCount .pending, .awaitAll]] =
        .ok (machine, .done) ∧
      machine.touched = snapshot.touches snapshot.atHint ∧
      machine.awaited = (snapshot.replies snapshot.atHint).map Prod.fst := by
  obtain ⟨machine, flow, hend, houtcome, htouched, hawaited⟩ := execute_awaiting snapshot
    (snapshot.replies snapshot.atHint) (snapshot.touches snapshot.atHint)
  have hrun := run_gathering snapshot call element hend
  rw [houtcome] at hrun
  exact ⟨machine, hrun, htouched, hawaited⟩

/-- A run that keeps pending operations, and answers with what they yield, waits for each of them
once. -/
theorem run_asyncSingleResult (snapshot : Snapshot α) (call : Call) (element : TypeExpr) :
    ∃ machine, snapshot.run
        [.takeSnapshot, .declarePending element,
          .forEachLive [.breakIfFull .stored, .collectPending call],
          .byCount [.finish (some .default)] [.finish (some .awaitFirst)]
            [.shrinkToCount .pending, .finish (some .awaitAllUnwrapped)]] =
        .ok (machine, awaitedResultOf (snapshot.replies snapshot.atHint)) ∧
      machine.touched = snapshot.touches snapshot.atHint ∧
      machine.awaited = (snapshot.replies snapshot.atHint).map Prod.fst := by
  obtain ⟨machine, hanswer, htouched, hawaited⟩ := execute_answer_awaited snapshot
    (snapshot.replies snapshot.atHint) (snapshot.touches snapshot.atHint)
  have hrun := run_gathering snapshot call element hanswer
  exact ⟨machine, hrun, htouched, hawaited⟩

end RadioBroker.Dispatch
