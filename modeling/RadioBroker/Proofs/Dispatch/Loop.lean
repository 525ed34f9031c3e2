import RadioBroker.Proofs.Dispatch.Machine
import RadioBroker.Proofs.Traversal

/-!
# The loop over a snapshot

A loop stops at the first live entry at which as many subscribers have been called as it may call.
Which subscribers it calls and which entries it touches depends on that limit alone, so a loop is
described by its limit and by what its body keeps of the replies so far (`Sweeps`).
-/

namespace RadioBroker.Dispatch

variable {α : Type}

/-- The replies that a loop gets from entries, when `called` subscribers have been called before and
`full` says when it stops. -/
def repliesFrom (full : Nat → Bool) : (called : Nat) → List (Entry α × Nat) → List (Reply α)
  | _, [] => []
  | called, (.null, _) :: rest => repliesFrom full called rest
  | called, (.dead, _) :: rest => repliesFrom full called rest
  | called, (.live answer, position) :: rest =>
    if full called then [] else (position, answer) :: repliesFrom full (called + 1) rest

/-- What a loop does to entries, when `called` subscribers have been called before and `full` says
when it stops. -/
def touchesFrom (full : Nat → Bool) : (called : Nat) → List (Entry α × Nat) → List Touch
  | _, [] => []
  | called, (.null, _) :: rest => touchesFrom full called rest
  | called, (.dead, position) :: rest => .disposed position :: touchesFrom full called rest
  | called, (.live _, position) :: rest =>
    if full called then [] else .invoked position :: touchesFrom full (called + 1) rest

namespace Machine

/-- Cutting a buffer down touches no entry. -/
@[simp] theorem touched_shrink (machine : Machine α) (hint : Nat) (buffer : Buffer) :
    (machine.shrink hint buffer).touched = machine.touched := by
  unfold shrink
  split
  · cases buffer <;> rfl
  · rfl

/-- Cutting a buffer down waits for nothing. -/
@[simp] theorem awaited_shrink (machine : Machine α) (hint : Nat) (buffer : Buffer) :
    (machine.shrink hint buffer).awaited = machine.awaited := by
  unfold shrink
  split
  · cases buffer <;> rfl
  · rfl

/-- Waiting for all operations, when every slot of their buffer is filled. -/
theorem takeAll_eq {machine : Machine α} {replies : List (Reply α)}
    (h : machine.pending = replies.map some) :
    machine.takeAll = .ok ({ machine with awaited := machine.awaited ++ replies.map Prod.fst },
      replies.map Prod.snd) := by
  have hslots : (replies.map some).mapM filled = .ok replies := by
    rw [mapM_eq_ok_iff, List.forall₂_map_left_iff, List.forall₂_same]
    exact fun _ _ => rfl
  rw [takeAll, h, hslots]
  rfl

/-- The machine when entries have been touched and the loop has arrived at a subscriber. -/
def arrived (machine : Machine α) (touched : List Touch) (current : Option (Reply α)) : Machine α :=
  { machine with touched, current }

/-- A loop body stops where it is full, and otherwise calls the subscriber that the loop has arrived
at; `kept` is what it keeps of the replies so far. -/
structure Sweeps (body : Machine α → Except Fault (Machine α × Flow α)) (full : Nat → Bool)
    (kept : List (Reply α) → Machine α) : Prop where
  leave : ∀ replies touched reply, full replies.length = true →
    body ((kept replies).arrived touched (some reply)) =
      .ok ((kept replies).arrived touched (some reply), .leave)
  call : ∀ replies touched reply, full replies.length = false →
    body ((kept replies).arrived touched (some reply)) =
      .ok ((kept (replies ++ [reply])).arrived (touched ++ [.invoked reply.1]) (some reply), .next)

/-- What a loop does from where it has got to. -/
theorem Sweeps.overEntries_eq {body : Machine α → Except Fault (Machine α × Flow α)}
    {full : Nat → Bool} {kept : List (Reply α) → Machine α} (h : Sweeps body full kept)
    (entries : List (Entry α × Nat)) (replies : List (Reply α)) (touched : List Touch)
    (current : Option (Reply α)) :
    overEntries body entries ((kept replies).arrived touched current) =
      .ok ((kept (replies ++ repliesFrom full replies.length entries)).arrived
        (touched ++ touchesFrom full replies.length entries) none, .next) := by
  induction entries generalizing replies touched current with
  | nil => simp [overEntries, repliesFrom, touchesFrom, arrived]
  | cons entry entries ih =>
      obtain ⟨entry, position⟩ := entry
      cases entry with
      | null => exact ih replies touched current
      | dead =>
          have hrest := ih replies (touched ++ [.disposed position]) current
          rw [List.append_assoc] at hrest
          exact hrest
      | live answer =>
          -- Whether the loop is full is asked here only, so dead entries in front are disposed of.
          cases hfull : full replies.length with
          | true =>
              have hbody := h.leave replies touched (position, answer) hfull
              simp only [repliesFrom, touchesFrom, hfull, if_true, List.append_nil]
              show (body ((kept replies).arrived touched (some (position, answer))) >>= _) = _
              rw [hbody]
              rfl
          | false =>
              have hbody := h.call replies touched (position, answer) hfull
              have hrest := ih (replies ++ [(position, answer)]) (touched ++ [.invoked position])
                (some (position, answer))
              rw [List.append_assoc, List.append_assoc, List.length_append] at hrest
              simp only [repliesFrom, touchesFrom, hfull, Bool.false_eq_true, if_false]
              show (body ((kept replies).arrived touched (some (position, answer))) >>= _) = _
              rw [hbody]
              exact hrest

end Machine

/-! ## Which replies and touches there are -/

/-- The replies of the live entries. -/
def liveReplies (entries : List (Entry α × Nat)) : List (Reply α) :=
  entries.filterMap fun entry =>
    match entry.1 with
    | .live answer => some (entry.2, answer)
    | _ => none

/-- A loop that is never full gets the replies of all live entries. -/
theorem repliesFrom_unlimited (called : Nat) (entries : List (Entry α × Nat)) :
    repliesFrom (fun _ => false) called entries = liveReplies entries := by
  induction entries generalizing called with
  | nil => rfl
  | cons entry entries ih =>
      obtain ⟨entry, position⟩ := entry
      cases entry <;> simp [repliesFrom, liveReplies, ih]

/-- A loop with a limit gets the first replies, up to the limit. -/
theorem repliesFrom_limited (limit called : Nat) (entries : List (Entry α × Nat)) :
    repliesFrom (fun called => decide (limit ≤ called)) called entries =
      (liveReplies entries).take (limit - called) := by
  induction entries generalizing called with
  | nil => simp [repliesFrom, liveReplies]
  | cons entry entries ih =>
      obtain ⟨entry, position⟩ := entry
      cases entry with
      | null => exact ih called
      | dead => exact ih called
      | live answer =>
          by_cases hfull : limit ≤ called
          · simp [repliesFrom, hfull, Nat.sub_eq_zero_of_le hfull]
          · have hleft : limit - called = limit - (called + 1) + 1 := by omega
            simp only [repliesFrom, hfull, decide_false, Bool.false_eq_true, if_false, ih]
            rw [hleft]
            rfl

/-- The calls among the touches are those that the replies come from. -/
theorem invoked_touchesFrom (full : Nat → Bool) (called : Nat) (entries : List (Entry α × Nat)) :
    (touchesFrom full called entries).filterMap Touch.invoked? =
      (repliesFrom full called entries).map Prod.fst := by
  induction entries generalizing called with
  | nil => rfl
  | cons entry entries ih =>
      obtain ⟨entry, position⟩ := entry
      cases entry with
      | null => exact ih called
      | dead => exact ih called
      | live answer =>
          simp only [touchesFrom, repliesFrom]
          split
          · rfl
          · simp [Touch.invoked?, ih]

/-- The positions of the dead entries. -/
def deadPositions (entries : List (Entry α × Nat)) : List Nat :=
  entries.filterMap fun entry =>
    match entry.1 with
    | .dead => some entry.2
    | _ => none

/-- A dead entry stands at its position. -/
theorem mem_of_mem_deadPositions {entries : List (Entry α × Nat)} {position : Nat}
    (h : position ∈ deadPositions entries) : (.dead, position) ∈ entries := by
  obtain ⟨⟨entry, other⟩, hmem, hentry⟩ := List.mem_filterMap.mp h
  cases entry with
  | dead =>
      cases hentry
      exact hmem
  | null => cases hentry
  | live answer => cases hentry

/-- A reply comes from the live entry at its position. -/
theorem mem_of_mem_liveReplies {entries : List (Entry α × Nat)} {reply : Reply α}
    (h : reply ∈ liveReplies entries) : (.live reply.2, reply.1) ∈ entries := by
  obtain ⟨⟨entry, other⟩, hmem, hentry⟩ := List.mem_filterMap.mp h
  cases entry with
  | dead => cases hentry
  | null => cases hentry
  | live answer =>
      cases hentry
      exact hmem

/-- A loop that is never full disposes of all dead entries. -/
theorem disposed_touchesFrom_unlimited (called : Nat) (entries : List (Entry α × Nat)) :
    (touchesFrom (fun _ => false) called entries).filterMap Touch.disposed? =
      deadPositions entries := by
  induction entries generalizing called with
  | nil => rfl
  | cons entry entries ih =>
      obtain ⟨entry, position⟩ := entry
      cases entry with
      | null => exact ih called
      | dead => exact congrArg (position :: ·) (ih called)
      | live answer => exact ih (called + 1)

/-- A position is before another one, if there is that other one. -/
def isBefore (stop : Option Nat) (position : Nat) : Bool := stop.all (position < ·)

/-- A loop with a limit disposes of the dead entries in front of the live entry at which it stops,
which is the first one beyond the limit. -/
theorem disposed_touchesFrom_limited (limit called : Nat) (entries : List (Entry α × Nat))
    (hsorted : (entries.map Prod.snd).Pairwise (· < ·)) :
    (touchesFrom (fun called => decide (limit ≤ called)) called entries).filterMap
        Touch.disposed? =
      (deadPositions entries).filter
        (isBefore ((liveReplies entries)[limit - called]?.map Prod.fst)) := by
  induction entries generalizing called with
  | nil => rfl
  | cons entry entries ih =>
      obtain ⟨entry, position⟩ := entry
      rw [List.map_cons, List.pairwise_cons] at hsorted
      obtain ⟨hfirst, hrest⟩ := hsorted
      cases entry with
      | null => exact ih called hrest
      | dead =>
          -- Wherever the loop stops, that is further on.
          have hbefore : isBefore ((liveReplies entries)[limit - called]?.map Prod.fst) position =
              true := by
            cases hstop : (liveReplies entries)[limit - called]? with
            | none => rfl
            | some reply =>
                have hmem := mem_of_mem_liveReplies (List.mem_of_getElem? hstop)
                have hlt : position < reply.1 := hfirst reply.1 (List.mem_map_of_mem hmem)
                simpa [isBefore] using hlt
          show position :: List.filterMap Touch.disposed? _ = List.filter
            (isBefore ((liveReplies entries)[limit - called]?.map Prod.fst))
            (position :: deadPositions entries)
          rw [List.filter_cons_of_pos hbefore, ih called hrest]
      | live answer =>
          by_cases hfull : limit ≤ called
          · -- The loop stops here, and all dead entries behind are at later positions.
            have hnone : (deadPositions entries).filter (isBefore (some position)) = [] := by
              rw [List.filter_eq_nil_iff]
              intro other hother
              have hmem := mem_of_mem_deadPositions hother
              have hlt : position < other := hfirst other (List.mem_map_of_mem hmem)
              simpa [isBefore] using Nat.le_of_lt hlt
            simp only [touchesFrom, hfull, decide_true, if_true, Nat.sub_eq_zero_of_le hfull]
            exact hnone.symm
          · have hleft : limit - called = limit - (called + 1) + 1 := by omega
            simp only [touchesFrom, hfull, decide_false, Bool.false_eq_true, if_false]
            rw [hleft]
            exact ih (called + 1) hrest

/-- A loop touches entries in order, each of them at most once. -/
theorem positions_touchesFrom (full : Nat → Bool) (called : Nat) (entries : List (Entry α × Nat)) :
    ((touchesFrom full called entries).map Touch.position).Sublist (entries.map Prod.snd) := by
  induction entries generalizing called with
  | nil => exact List.Sublist.refl _
  | cons entry entries ih =>
      obtain ⟨entry, position⟩ := entry
      cases entry with
      | null => exact (ih called).cons _
      | dead => exact (ih called).cons_cons _
      | live answer =>
          simp only [touchesFrom]
          split
          · exact List.nil_sublist _
          · exact (ih (called + 1)).cons_cons _

/-- What a loop touches is not null. -/
theorem ne_null_of_mem_touchesFrom {full : Nat → Bool} {called : Nat}
    {entries : List (Entry α × Nat)} {touch : Touch} (h : touch ∈ touchesFrom full called entries) :
    ∃ entry, (entry, touch.position) ∈ entries ∧ entry ≠ .null := by
  induction entries generalizing called with
  | nil => cases h
  | cons entry entries ih =>
      -- A touch further on is a touch of the remaining entries.
      have hlater : ∀ {called}, touch ∈ touchesFrom full called entries →
          ∃ other, (other, touch.position) ∈ entry :: entries ∧ other ≠ .null := by
        intro called htouch
        obtain ⟨other, hmem, hother⟩ := ih htouch
        exact ⟨other, List.mem_cons_of_mem entry hmem, hother⟩
      obtain ⟨entry, position⟩ := entry
      cases entry with
      | null => exact hlater h
      | dead =>
          rcases List.mem_cons.mp h with hhere | hrest
          · subst hhere
            exact ⟨.dead, List.mem_cons_self, nofun⟩
          · exact hlater hrest
      | live answer =>
          simp only [touchesFrom] at h
          split at h
          · cases h
          · rcases List.mem_cons.mp h with hhere | hrest
            · subst hhere
              exact ⟨.live answer, List.mem_cons_self, nofun⟩
            · exact hlater hrest

end RadioBroker.Dispatch
