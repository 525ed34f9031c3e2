import RadioBroker.TypeExpr.Basic

/-!
# Dispatch statements

What a broker method does, said by meaning and not by spelling: take a snapshot of the subscribers,
keep an answer, branch on how many were kept.
-/

namespace RadioBroker

/-- A call of a method on a subscriber, which forwards that many parameters. -/
structure Call where
  method : String
  arguments : Nat
deriving DecidableEq, Inhabited, Repr

/-- The buffers that keep answers. -/
inductive Buffer where
  /-- Values. -/
  | results
  /-- Pending operations. -/
  | pending
deriving DecidableEq, Inhabited, Repr

/-- The counters a loop may stop at. -/
inductive Counter where
  /-- The answers kept so far. -/
  | stored
  /-- The subscribers called so far, whether they answered or not. -/
  | invoked
deriving DecidableEq, Inhabited, Repr

/-- What a broker method answers. -/
inductive Answer where
  /-- The result without values. -/
  | default
  /-- A result of the only value kept. -/
  | wrapFirst
  /-- A result of all values kept. -/
  | wrapResults
  /-- What the only pending operation yields. -/
  | awaitFirst
  /-- A result of what each pending operation yields, with the default for those that yield
  nothing. -/
  | awaitAllUnwrapped
deriving DecidableEq, Inhabited, Repr

/-- A statement of a broker method. -/
inductive Statement where
  /-- Takes one snapshot of the channel: its entries, and a hint how many there are. -/
  | takeSnapshot
  /-- Declares the slot of the first value, the buffer of values and both counters. -/
  | declareResults (result : TypeExpr)
  /-- Declares the buffer of pending operations, as long as the hint, and its counter. -/
  | declarePending (element : TypeExpr)
  /-- Runs the body for each live entry. Null entries are passed over; an entry that no longer
  resolves is disposed of and passed over. -/
  | forEachLive (body : List Statement)
  /-- Leaves the loop once the counter has reached the hint. -/
  | breakIfFull (counter : Counter)
  /-- Counts the call that comes next. -/
  | countInvocation
  /-- Calls, and drops the answer. -/
  | invoke (call : Call)
  /-- Calls, and keeps the value if there is one. -/
  | collectResult (call : Call)
  /-- Calls, and keeps the pending operation. -/
  | collectPending (call : Call)
  /-- Branches on the number of answers kept. -/
  | byCount (zero one many : List Statement)
  /-- Cuts a buffer down to the answers kept, when these are fewer than the hint. -/
  | shrinkToCount (buffer : Buffer)
  /-- Waits for the only pending operation. -/
  | awaitFirst
  /-- Waits for all pending operations. -/
  | awaitAll
  /-- Returns, with an answer or without. -/
  | finish (answer : Option Answer)
deriving Inhabited, Repr

end RadioBroker
