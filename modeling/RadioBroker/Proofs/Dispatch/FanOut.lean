import RadioBroker.Proofs.Dispatch.Run

/-!
# Fan-out of dispatch bodies

Which entries of a snapshot the body of a method touches: without answers all of them, and with
answers those in front of the first live entry beyond the hint.
-/

namespace RadioBroker.Dispatch

variable {α : Type}

/-- An entry holds a subscriber. -/
def Entry.isLive : Entry α → Bool
  | live _ => true
  | _ => false

/-- The subscriber of an entry is gone. -/
def Entry.isDead : Entry α → Bool
  | dead => true
  | _ => false

/-- Replies come from the positions of live entries, in order. -/
theorem map_fst_liveReplies (entries : List (Entry α)) (start : Nat) :
    (liveReplies (entries.zipIdx start)).map Prod.fst = entries.findIdxs Entry.isLive start := by
  induction entries generalizing start with
  | nil => rfl
  | cons entry entries ih =>
      have hrest := ih (start + 1)
      cases entry with
      | null => simpa [liveReplies, Entry.isLive] using hrest
      | dead => simpa [liveReplies, Entry.isLive] using hrest
      | live answer => simpa [liveReplies, Entry.isLive] using hrest

/-- The dead entries have the positions that they are found at. -/
theorem deadPositions_zipIdx (entries : List (Entry α)) (start : Nat) :
    deadPositions (entries.zipIdx start) = entries.findIdxs Entry.isDead start := by
  induction entries generalizing start with
  | nil => rfl
  | cons entry entries ih =>
      have hrest := ih (start + 1)
      cases entry with
      | null => simpa [deadPositions, Entry.isDead] using hrest
      | dead => simpa [deadPositions, Entry.isDead] using hrest
      | live answer => simpa [deadPositions, Entry.isDead] using hrest

/-- Entries are numbered in order. -/
theorem pairwise_zipIdx (entries : List (Entry α)) :
    (entries.zipIdx.map Prod.snd).Pairwise (· < ·) := by
  rw [List.zipIdx_map_snd]
  exact List.pairwise_lt_range'

namespace Snapshot

/-- The positions of the subscribers. -/
def livePositions (snapshot : Snapshot α) : List Nat := snapshot.entries.findIdxs Entry.isLive

/-- The positions of the subscribers that are gone. -/
def deadPositions (snapshot : Snapshot α) : List Nat := snapshot.entries.findIdxs Entry.isDead

/-- The positions of the subscribers that a method of a kind calls: without answers all of them,
with answers no more than the hint says. -/
def reached (snapshot : Snapshot α) : DispatchKind → List Nat
  | .void => snapshot.livePositions
  | _ => snapshot.livePositions.take snapshot.hint

/-- Where a method of a kind stops: with answers at the first live entry beyond the hint. -/
def stop (snapshot : Snapshot α) : DispatchKind → Option Nat
  | .void => none
  | _ => snapshot.livePositions[snapshot.hint]?

/-- Touches that are those of a method of a kind. -/
structure FansOut (snapshot : Snapshot α) (kind : DispatchKind) (touched : List Touch) : Prop where
  invoked : touched.filterMap Touch.invoked? = snapshot.reached kind
  disposed : touched.filterMap Touch.disposed? =
    snapshot.deadPositions.filter (isBefore (snapshot.stop kind))
  /-- No entry is touched twice. -/
  inOrder : (touched.map Touch.position).Pairwise (· < ·)
  notNull : ∀ touch ∈ touched, snapshot.entries[touch.position]? ≠ some .null

/-- Whenever a loop stops, it touches entries in order. -/
theorem pairwise_touches (snapshot : Snapshot α) (full : Nat → Bool) :
    ((snapshot.touches full).map Touch.position).Pairwise (· < ·) :=
  (pairwise_zipIdx snapshot.entries).sublist (positions_touchesFrom full 0 _)

/-- Whenever a loop stops, it has touched no null entry. -/
theorem ne_null_of_mem_touches {snapshot : Snapshot α} {full : Nat → Bool} {touch : Touch}
    (h : touch ∈ snapshot.touches full) : snapshot.entries[touch.position]? ≠ some .null := by
  obtain ⟨entry, hmem, hentry⟩ := ne_null_of_mem_touchesFrom h
  rw [List.mk_mem_zipIdx_iff_getElem?] at hmem
  rw [hmem]
  intro hnull
  exact hentry (Option.some.inj hnull)

/-- A loop that never stops touches what a method without answers does. -/
theorem fansOut_unlimited (snapshot : Snapshot α) :
    snapshot.FansOut .void (snapshot.touches fun _ => false) where
  invoked := by
    rw [touches, invoked_touchesFrom, repliesFrom_unlimited, map_fst_liveReplies]
    rfl
  disposed := by
    rw [touches, disposed_touchesFrom_unlimited, deadPositions_zipIdx]
    exact (List.filter_eq_self.mpr fun _ _ => rfl).symm
  inOrder := snapshot.pairwise_touches _
  notNull _ h := ne_null_of_mem_touches h

/-- A loop that stops at the hint touches what a method with answers does. -/
theorem fansOut_atHint (snapshot : Snapshot α) {kind : DispatchKind} (h : kind ≠ .void) :
    snapshot.FansOut kind (snapshot.touches snapshot.atHint) where
  invoked := by
    have hreached : snapshot.reached kind = snapshot.livePositions.take snapshot.hint := by
      cases kind <;> first | rfl | exact absurd rfl h
    have hreplies := repliesFrom_limited snapshot.hint 0 snapshot.entries.zipIdx
    rw [hreached, touches, invoked_touchesFrom]
    show List.map _ (repliesFrom (fun called => decide (snapshot.hint ≤ called)) 0 _) = _
    rw [hreplies, List.map_take, map_fst_liveReplies]
    rfl
  disposed := by
    have hstop : snapshot.stop kind = snapshot.livePositions[snapshot.hint]? := by
      cases kind <;> first | rfl | exact absurd rfl h
    have hdisposed := disposed_touchesFrom_limited snapshot.hint 0 snapshot.entries.zipIdx
      (pairwise_zipIdx snapshot.entries)
    rw [← List.getElem?_map, map_fst_liveReplies, deadPositions_zipIdx] at hdisposed
    rw [hstop]
    exact hdisposed
  inOrder := snapshot.pairwise_touches _
  notNull _ h := ne_null_of_mem_touches h

end Snapshot

/-- The body of a supported method runs against any snapshot, and touches those entries that its
kind is to touch: in order, each of them once, and never a null one. -/
theorem dispatchBody_fansOut [Inhabited α] {method : ServiceMethod} (h : method.Classified)
    (snapshot : Snapshot α) :
    ∃ body machine outcome, method.dispatchBody? = some body ∧
      snapshot.run body = .ok (machine, outcome) ∧
      snapshot.FansOut method.kind machine.touched := by
  have hresult := h.result_isSome
  unfold ServiceMethod.dispatchBody?
  cases hkind : method.kind with
  | other => exact absurd hkind h.supported
  | void =>
      obtain ⟨machine, hrun, htouched⟩ := run_void snapshot method.call
      refine ⟨_, machine, _, rfl, hrun, ?_⟩
      rw [htouched]
      exact snapshot.fansOut_unlimited
  | singleResult =>
      rw [hkind] at hresult
      obtain ⟨result, hsome⟩ := Option.isSome_iff_exists.mp hresult
      obtain ⟨machine, hrun, htouched⟩ := run_singleResult snapshot method.call result
      rw [hsome]
      refine ⟨_, machine, _, rfl, hrun, ?_⟩
      rw [htouched]
      exact snapshot.fansOut_atHint (by decide)
  | asyncVoid =>
      obtain ⟨machine, hrun, htouched, -⟩ := run_asyncVoid snapshot method.call method.returnType
      refine ⟨_, machine, _, rfl, hrun, ?_⟩
      rw [htouched]
      exact snapshot.fansOut_atHint (by decide)
  | asyncSingleResult =>
      obtain ⟨machine, hrun, htouched, -⟩ :=
        run_asyncSingleResult snapshot method.call method.returnType
      refine ⟨_, machine, _, rfl, hrun, ?_⟩
      rw [htouched]
      exact snapshot.fansOut_atHint (by decide)

/-- A method that subscribers answer with a number. -/
def askMethod : ServiceMethod where
  name := "Ask"
  parameters := []
  returnType := .applied radioResultName [.named "int"]
  kind := .singleResult
  result := some (.named "int")
  interface := "IService"
  location := {}

/-- Four subscribers, one of which says nothing, with three of them expected. -/
def fourSubscribers : Snapshot Nat where
  entries :=
    [.dead, .live (some 3), .null, .live none, .live (some 5), .dead, .live (some 6), .dead]
  hint := 3

/-- The fourth subscriber is not called, and what is dead behind it stays. -/
theorem dispatchBody_fansOut_fourSubscribers :
    askMethod.Classified ∧
      ∃ body machine outcome, askMethod.dispatchBody? = some body ∧
        fourSubscribers.run body = .ok (machine, outcome) ∧
        machine.touched.filterMap Touch.invoked? = [1, 3, 4] ∧
        machine.touched.filterMap Touch.disposed? = [0, 5] := by
  have hclassified : askMethod.Classified := ⟨by decide, by decide⟩
  obtain ⟨body, machine, outcome, hbody, hrun, hfans⟩ :=
    dispatchBody_fansOut hclassified fourSubscribers
  have hinvoked : fourSubscribers.reached askMethod.kind = [1, 3, 4] := by decide
  have hdisposed : fourSubscribers.deadPositions.filter
      (isBefore (fourSubscribers.stop askMethod.kind)) = [0, 5] := by decide
  exact ⟨hclassified, body, machine, outcome, hbody, hrun, hfans.invoked.trans hinvoked,
    hfans.disposed.trans hdisposed⟩

end RadioBroker.Dispatch
