import Mathlib.Data.List.ReduceOption
import RadioBroker.Proofs.Dispatch.FanOut

/-!
# Aggregation by dispatch bodies

What the body of a method makes of the answers of the subscribers that it calls: which outcome it
returns, and which pending operations it waits for. The machine stops with a fault at any access
outside a buffer, of a slot that was not filled or of a buffer that was not made, so that a run ends
without a fault says that no body does any of this.
-/

namespace RadioBroker.Dispatch

variable {α : Type}

/-- The answer of the subscriber that an entry holds. -/
def Entry.answer? : Entry α → Option (Option α)
  | live answer => some answer
  | _ => none

/-- The positions of the subscribers that have been called, in order. -/
def Machine.invoked (machine : Machine α) : List Nat := machine.touched.filterMap Touch.invoked?

namespace Snapshot

/-- The answers of the subscribers at positions, in order. -/
def answersAt (snapshot : Snapshot α) (positions : List Nat) : List (Option α) :=
  positions.filterMap fun position => snapshot.entries[position]?.bind Entry.answer?

/-- The answers of the subscribers that have been called, in order. -/
def answersTo (snapshot : Snapshot α) (machine : Machine α) : List (Option α) :=
  snapshot.answersAt machine.invoked

end Snapshot

/-- The result of awaited answers: what the only one says, or all of them with the default in place
of those that say nothing. -/
def joinedOf [Inhabited α] : List (Option α) → Outcome α
  | [] => .empty
  | [answer] => resultOf answer.toList
  | answers => .many (answers.map fun answer => answer.getD default)

/-- The calls of a run of the body of a method of a kind. -/
structure Snapshot.Calls (snapshot : Snapshot α) (kind : DispatchKind) (machine : Machine α) :
    Prop where
  invoked : machine.invoked = snapshot.reached kind
  /-- No subscriber is called twice. -/
  nodup : machine.invoked.Nodup
  /-- Whatever is called is a subscriber, and answers. -/
  answered : (snapshot.answersTo machine).length = machine.invoked.length

/-- What a run of the body of a method of a kind comes to. -/
structure Snapshot.Aggregates [Inhabited α] (snapshot : Snapshot α) (kind : DispatchKind)
    (machine : Machine α) (outcome : Outcome α) : Prop where
  calls : snapshot.Calls kind machine
  void : kind = .void → outcome = .done
  /-- The result holds the values among the answers and nothing else. -/
  singleResult : kind = .singleResult →
    outcome = resultOf (snapshot.answersTo machine).reduceOption
  asyncVoid : kind = .asyncVoid → outcome = .done ∧ machine.awaited = machine.invoked
  asyncSingleResult : kind = .asyncSingleResult →
    outcome = joinedOf (snapshot.answersTo machine) ∧ machine.awaited = machine.invoked

/-! ## Answers and replies -/

/-- The values among replies are those among their answers. -/
theorem valuesOf_eq_reduceOption (replies : List (Reply α)) :
    valuesOf replies = (replies.map Prod.snd).reduceOption := by
  rw [List.reduceOption, List.filterMap_map]
  rfl

/-- The result of awaited replies is that of their answers. -/
theorem awaitedResultOf_eq_joinedOf [Inhabited α] (replies : List (Reply α)) :
    awaitedResultOf replies = joinedOf (replies.map Prod.snd) := by
  match replies with
  | [] => rfl
  | [reply] => rfl
  | first :: second :: rest => rfl

/-- Whether a loop stops at a limit or never, each of its replies is that of a live entry. -/
theorem mem_liveReplies_of_mem_repliesFrom {full : Nat → Bool} {called : Nat}
    {entries : List (Entry α × Nat)} {reply : Reply α}
    (h : reply ∈ repliesFrom full called entries) : reply ∈ liveReplies entries := by
  induction entries generalizing called with
  | nil => cases h
  | cons entry entries ih =>
      obtain ⟨entry, position⟩ := entry
      cases entry with
      | null => exact ih h
      | dead => exact ih h
      | live answer =>
          simp only [repliesFrom] at h
          split at h
          · cases h
          · rcases List.mem_cons.mp h with hhere | hrest
            · exact hhere ▸ List.mem_cons_self
            · exact List.mem_cons_of_mem _ (ih hrest)

namespace Snapshot

/-- The subscriber that a reply comes from answers so. -/
theorem answer?_of_mem_replies {snapshot : Snapshot α} {full : Nat → Bool} {reply : Reply α}
    (h : reply ∈ snapshot.replies full) :
    snapshot.entries[reply.1]?.bind Entry.answer? = some reply.2 := by
  have hmem := mem_of_mem_liveReplies (mem_liveReplies_of_mem_repliesFrom h)
  rw [List.mk_mem_zipIdx_iff_getElem?] at hmem
  rw [hmem]
  rfl

/-- Where a loop has made all calls, the calls are those that its replies come from. -/
theorem invoked_eq_of_touched {snapshot : Snapshot α} {full : Nat → Bool} {machine : Machine α}
    (h : machine.touched = snapshot.touches full) :
    machine.invoked = (snapshot.replies full).map Prod.fst := by
  rw [Machine.invoked, h]
  exact invoked_touchesFrom full 0 _

/-- Where a loop has made all calls, the answers are those of its replies. -/
theorem answersTo_eq_of_touched {snapshot : Snapshot α} {full : Nat → Bool} {machine : Machine α}
    (h : machine.touched = snapshot.touches full) :
    snapshot.answersTo machine = (snapshot.replies full).map Prod.snd := by
  rw [answersTo, invoked_eq_of_touched h, answersAt, List.filterMap_map, ← List.filterMap_eq_map]
  exact List.filterMap_congr fun reply hreply => answer?_of_mem_replies hreply

/-- Where a loop has made all calls, none was made twice. -/
theorem nodup_invoked_of_touched {snapshot : Snapshot α} {full : Nat → Bool} {machine : Machine α}
    (h : machine.touched = snapshot.touches full) : machine.invoked.Nodup := by
  have hsublist : (machine.touched.filterMap Touch.invoked?).Sublist
      (machine.touched.map Touch.position) := by
    induction machine.touched with
    | nil => exact List.Sublist.refl _
    | cons touch touched ih =>
        cases touch with
        | invoked position => exact ih.cons_cons position
        | disposed position => exact ih.cons position
  rw [h] at hsublist
  rw [Machine.invoked, h]
  exact ((snapshot.pairwise_touches full).sublist hsublist).imp Nat.ne_of_lt

/-- Where a loop has made all calls, every call was answered. -/
theorem length_answersTo_of_touched {snapshot : Snapshot α} {full : Nat → Bool}
    {machine : Machine α} (h : machine.touched = snapshot.touches full) :
    (snapshot.answersTo machine).length = machine.invoked.length := by
  rw [answersTo_eq_of_touched h, invoked_eq_of_touched h, List.length_map, List.length_map]

/-- A loop that never stops makes the calls of a method without answers. -/
theorem calls_unlimited {snapshot : Snapshot α} {machine : Machine α}
    (h : machine.touched = snapshot.touches fun _ => false) : snapshot.Calls .void machine where
  invoked := by
    rw [Machine.invoked, h]
    exact snapshot.fansOut_unlimited.invoked
  nodup := nodup_invoked_of_touched h
  answered := length_answersTo_of_touched h

/-- A loop that stops at the hint makes the calls of a method with answers. -/
theorem calls_atHint {snapshot : Snapshot α} {machine : Machine α} {kind : DispatchKind}
    (hkind : kind ≠ .void) (h : machine.touched = snapshot.touches snapshot.atHint) :
    snapshot.Calls kind machine where
  invoked := by
    rw [Machine.invoked, h]
    exact (snapshot.fansOut_atHint hkind).invoked
  nodup := nodup_invoked_of_touched h
  answered := length_answersTo_of_touched h

end Snapshot

/-- The body of a supported method runs against any snapshot without a fault. It makes of the
answers what its kind is to make of them, and waits for each pending operation once. -/
theorem dispatchBody_aggregates [Inhabited α] {method : ServiceMethod} (h : method.Classified)
    (snapshot : Snapshot α) :
    ∃ body machine outcome, method.dispatchBody? = some body ∧
      snapshot.run body = .ok (machine, outcome) ∧
      snapshot.Aggregates method.kind machine outcome := by
  have hresult := h.result_isSome
  unfold ServiceMethod.dispatchBody?
  cases hkind : method.kind with
  | other => exact absurd hkind h.supported
  | void =>
      obtain ⟨machine, hrun, htouched⟩ := run_void snapshot method.call
      have hcalls := Snapshot.calls_unlimited htouched
      refine ⟨_, machine, _, rfl, hrun, ?_⟩
      exact ⟨hcalls, fun _ => rfl, nofun, nofun, nofun⟩
  | singleResult =>
      rw [hkind] at hresult
      obtain ⟨result, hsome⟩ := Option.isSome_iff_exists.mp hresult
      obtain ⟨machine, hrun, htouched⟩ := run_singleResult snapshot method.call result
      have hcalls : snapshot.Calls .singleResult machine :=
        Snapshot.calls_atHint (by decide) htouched
      rw [hsome]
      refine ⟨_, machine, _, rfl, hrun, hcalls, nofun, fun _ => ?_, nofun, nofun⟩
      rw [Snapshot.answersTo_eq_of_touched htouched, valuesOf_eq_reduceOption]
  | asyncVoid =>
      obtain ⟨machine, hrun, htouched, hawaited⟩ :=
        run_asyncVoid snapshot method.call method.returnType
      have hcalls : snapshot.Calls .asyncVoid machine :=
        Snapshot.calls_atHint (by decide) htouched
      refine ⟨_, machine, _, rfl, hrun, hcalls, nofun, nofun, fun _ => ⟨rfl, ?_⟩, nofun⟩
      rw [hawaited, Snapshot.invoked_eq_of_touched htouched]
  | asyncSingleResult =>
      obtain ⟨machine, hrun, htouched, hawaited⟩ :=
        run_asyncSingleResult snapshot method.call method.returnType
      have hcalls : snapshot.Calls .asyncSingleResult machine :=
        Snapshot.calls_atHint (by decide) htouched
      refine ⟨_, machine, _, rfl, hrun, hcalls, nofun, nofun, nofun, fun _ => ⟨?_, ?_⟩⟩
      · rw [Snapshot.answersTo_eq_of_touched htouched, awaitedResultOf_eq_joinedOf]
      · rw [hawaited, Snapshot.invoked_eq_of_touched htouched]

/-- A method that subscribers answer with a number in the end. -/
def promiseMethod : ServiceMethod where
  name := "Promise"
  parameters := []
  returnType := .applied taskName [.applied radioResultName [.named "int"]]
  kind := .asyncSingleResult
  result := some (.named "int")
  interface := "IService"
  location := {}

/-- Of four subscribers the first three are called and awaited; the silent one counts as zero. -/
theorem dispatchBody_aggregates_fourSubscribers :
    promiseMethod.Classified ∧
      ∃ body machine outcome, promiseMethod.dispatchBody? = some body ∧
        fourSubscribers.run body = .ok (machine, outcome) ∧
        machine.awaited = [1, 3, 4] ∧ outcome = .many [3, 0, 5] := by
  have hclassified : promiseMethod.Classified := ⟨by decide, by decide⟩
  obtain ⟨body, machine, outcome, hbody, hrun, haggregates⟩ :=
    dispatchBody_aggregates hclassified fourSubscribers
  obtain ⟨houtcome, hawaited⟩ := haggregates.asyncSingleResult rfl
  have hinvoked : machine.invoked = [1, 3, 4] := haggregates.calls.invoked.trans (by decide)
  refine ⟨hclassified, body, machine, outcome, hbody, hrun, hawaited.trans hinvoked, ?_⟩
  rw [houtcome, Snapshot.answersTo, hinvoked]
  rfl

end RadioBroker.Dispatch
