import RadioBroker.Dispatch.Statement

/-!
# A machine for dispatch bodies

What statements do to a channel of subscribers. A body runs against one snapshot: the entries of the
channel and a hint how many there are. Buffers have a fixed length; whatever would be an access
outside a buffer, or of a slot or buffer that was never filled, is a fault of the machine.
-/

namespace RadioBroker.Dispatch

/-- An entry of a snapshot; `α` are the values that subscribers answer with. -/
inductive Entry (α : Type) where
  /-- An empty slot. -/
  | null
  /-- The subscriber is gone. -/
  | dead
  /-- A subscriber, and the value that its call yields, if any. -/
  | live (answer : Option α)

/-- What a body sees of its channel. -/
structure Snapshot (α : Type) where
  entries : List (Entry α)
  /-- How many subscribers there are, as far as is known. -/
  hint : Nat

/-- The position of a subscriber, and what its call yields. -/
abbrev Reply (α : Type) := Nat × Option α

/-- What happens to an entry. -/
inductive Touch where
  /-- The subscriber at a position is called. -/
  | invoked (position : Nat)
  /-- The entry at a position is disposed of. -/
  | disposed (position : Nat)
deriving DecidableEq, Repr

namespace Touch

/-- The position of the entry. -/
def position : Touch → Nat
  | invoked position => position
  | disposed position => position

/-- The position of a subscriber that is called. -/
def invoked? : Touch → Option Nat
  | invoked position => some position
  | disposed _ => none

/-- The position of an entry that is disposed of. -/
def disposed? : Touch → Option Nat
  | invoked _ => none
  | disposed position => some position

end Touch

/-- Why a body gets stuck. -/
inductive Fault where
  /-- A subscriber is called outside the loop. -/
  | outsideLoop
  /-- A buffer is accessed beyond its end. -/
  | overflow
  /-- A slot is awaited that was never filled. -/
  | emptySlot
  /-- The buffer of values was never made. -/
  | noResults
deriving DecidableEq, Repr

/-- What a body returns. -/
inductive Outcome (α : Type) where
  /-- Nothing. -/
  | done
  /-- The result without values. -/
  | empty
  | one (value : α)
  | many (values : List α)

/-- How a statement hands over. -/
inductive Flow (α : Type) where
  /-- The next statement follows. -/
  | next
  /-- The loop is left. -/
  | leave
  /-- The body returns. -/
  | finished (outcome : Outcome α)

/-- What a body answers that ends that way. -/
def Flow.outcome {α : Type} : Flow α → Outcome α
  | finished outcome => outcome
  | _ => .done

/-- The state of the machine, with all that has happened so far. -/
structure Machine (α : Type) where
  /-- What happened to entries, in order. -/
  touched : List Touch := []
  /-- The positions whose pending operations were awaited, in order. -/
  awaited : List Nat := []
  /-- The subscriber that the loop has arrived at. -/
  current : Option (Reply α) := none
  /-- The answers kept. -/
  count : Nat := 0
  /-- The calls counted. -/
  invocations : Nat := 0
  /-- The slot of the first value. -/
  first : α
  /-- The buffer of values; it is made when the second value arrives. -/
  results : Option (List α) := none
  /-- The buffer of pending operations. -/
  pending : List (Option (Reply α)) := []

/-- Writes to a slot of a buffer. -/
def store {β : Type} (buffer : List β) (slot : Nat) (value : β) : Except Fault (List β) :=
  if slot < buffer.length then .ok (buffer.set slot value) else .error .overflow

namespace Machine

variable {α : Type} [Inhabited α]

/-- Calls the subscriber that the loop has arrived at. -/
def call (machine : Machine α) : Except Fault (Machine α × Reply α) :=
  match machine.current with
  | none => .error .outsideLoop
  | some reply =>
    .ok ({ machine with touched := machine.touched ++ [.invoked reply.1] }, reply)

/-- Keeps a value. The first one has a slot of its own. -/
def keepValue (machine : Machine α) (hint : Nat) (value : α) : Except Fault (Machine α) :=
  if machine.count = 0 then
    .ok { machine with first := value, count := machine.count + 1 }
  else do
    let buffer ←
      match machine.results with
      | some buffer => .ok buffer
      | none => store (List.replicate hint default) 0 machine.first
    let buffer ← store buffer machine.count value
    .ok { machine with results := some buffer, count := machine.count + 1 }

/-- Waits for the first pending operation. -/
def takeFirst (machine : Machine α) : Except Fault (Machine α × Option α) :=
  match machine.pending with
  | [] => .error .overflow
  | none :: _ => .error .emptySlot
  | some reply :: _ => .ok ({ machine with awaited := machine.awaited ++ [reply.1] }, reply.2)

/-- Reads a slot that has to be filled. -/
def filled : Option (Reply α) → Except Fault (Reply α)
  | none => .error .emptySlot
  | some reply => .ok reply

/-- Waits for all pending operations. -/
def takeAll (machine : Machine α) : Except Fault (Machine α × List (Option α)) := do
  let replies ← machine.pending.mapM filled
  .ok ({ machine with awaited := machine.awaited ++ replies.map Prod.fst },
    replies.map Prod.snd)

/-- Works out an answer. -/
def answer (machine : Machine α) : Answer → Except Fault (Machine α × Outcome α)
  | .default => .ok (machine, .empty)
  | .wrapFirst => .ok (machine, .one machine.first)
  | .wrapResults =>
    match machine.results with
    | none => .error .noResults
    | some values => .ok (machine, .many values)
  | .awaitFirst => do
    let (machine, value) ← machine.takeFirst
    match value with
    | none => .ok (machine, .empty)
    | some value => .ok (machine, .one value)
  | .awaitAllUnwrapped => do
    let (machine, values) ← machine.takeAll
    .ok (machine, .many (values.map fun value => value.getD default))

/-- Cuts a buffer down to the answers kept, when these are fewer than the hint. -/
def shrink (machine : Machine α) (hint : Nat) (buffer : Buffer) : Machine α :=
  if machine.count < hint then
    match buffer with
    | .results =>
      { machine with results := machine.results.map fun values => values.take machine.count }
    | .pending => { machine with pending := machine.pending.take machine.count }
  else machine

/-- Goes over entries with their positions, and runs a loop body at each that is live. -/
def overEntries (body : Machine α → Except Fault (Machine α × Flow α)) :
    List (Entry α × Nat) → Machine α → Except Fault (Machine α × Flow α)
  | [], machine => .ok ({ machine with current := none }, .next)
  | (.null, _) :: rest, machine => overEntries body rest machine
  | (.dead, position) :: rest, machine =>
    overEntries body rest { machine with touched := machine.touched ++ [.disposed position] }
  | (.live answer, position) :: rest, machine => do
    let (machine, flow) ← body { machine with current := some (position, answer) }
    match flow with
    | .next => overEntries body rest machine
    | .leave => .ok ({ machine with current := none }, .next)
    | .finished outcome => .ok (machine, .finished outcome)

mutual

/-- Runs a statement. -/
def step (snapshot : Snapshot α) : Statement → Machine α → Except Fault (Machine α × Flow α)
  | .takeSnapshot, machine => .ok (machine, .next)
  | .declareResults _, machine =>
    .ok ({ machine with first := default, results := none, count := 0, invocations := 0 }, .next)
  | .declarePending _, machine =>
    .ok ({ machine with pending := List.replicate snapshot.hint none, count := 0 }, .next)
  | .forEachLive body, machine =>
    overEntries (fun machine => execute snapshot body machine) snapshot.entries.zipIdx machine
  | .breakIfFull counter, machine =>
    let reached := match counter with
      | .stored => machine.count
      | .invoked => machine.invocations
    .ok (machine, if snapshot.hint ≤ reached then .leave else .next)
  | .countInvocation, machine =>
    .ok ({ machine with invocations := machine.invocations + 1 }, .next)
  | .invoke _, machine => do
    let (machine, _) ← machine.call
    .ok (machine, .next)
  | .collectResult _, machine => do
    let (machine, reply) ← machine.call
    match reply.2 with
    | none => .ok (machine, .next)
    | some value => do
      let machine ← machine.keepValue snapshot.hint value
      .ok (machine, .next)
  | .collectPending _, machine => do
    let (machine, reply) ← machine.call
    let pending ← store machine.pending machine.count (some reply)
    .ok ({ machine with pending, count := machine.count + 1 }, .next)
  | .byCount zero one many, machine =>
    match machine.count with
    | 0 => execute snapshot zero machine
    | 1 => execute snapshot one machine
    | _ => execute snapshot many machine
  | .shrinkToCount buffer, machine => .ok (machine.shrink snapshot.hint buffer, .next)
  | .awaitFirst, machine => do
    let (machine, _) ← machine.takeFirst
    .ok (machine, .next)
  | .awaitAll, machine => do
    let (machine, _) ← machine.takeAll
    .ok (machine, .next)
  | .finish none, machine => .ok (machine, .finished .done)
  | .finish (some value), machine => do
    let (machine, outcome) ← machine.answer value
    .ok (machine, .finished outcome)

/-- Runs statements until one of them leaves the loop or returns. -/
def execute (snapshot : Snapshot α) :
    List Statement → Machine α → Except Fault (Machine α × Flow α)
  | [], machine => .ok (machine, .next)
  | statement :: statements, machine => do
    let (machine, flow) ← step snapshot statement machine
    match flow with
    | .next => execute snapshot statements machine
    | flow => .ok (machine, flow)

end

end Machine

/-- Runs a body against a snapshot. A body that does not return ends with nothing. -/
def Snapshot.run {α : Type} [Inhabited α] (snapshot : Snapshot α) (body : List Statement) :
    Except Fault (Machine α × Outcome α) := do
  let (machine, flow) ← Machine.execute snapshot body { first := default }
  .ok (machine, flow.outcome)

-- An entry that is dead is disposed of, and the subscriber behind it is called.
example :
    ((⟨[.null, .dead, .live (some 7)], 1⟩ : Snapshot Nat).run
        [.takeSnapshot, .forEachLive [.countInvocation, .invoke ⟨"Go", 0⟩]]).map
      (fun result => result.1.touched) = .ok [.disposed 1, .invoked 2] := by
  cbv

end RadioBroker.Dispatch
