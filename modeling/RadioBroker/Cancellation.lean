/-!
# Cancellation

A generation is asked to stop through a token. Tokens that were taken from one another stand for one
request: once it is made through one of them, all of them say so.
-/

namespace RadioBroker

/-- Tokens in the order in which they were taken, and the requests that were made. -/
structure Tokens where
  /-- The request that each token stands for. -/
  requests : List Nat := [0]
  /-- The requests that were made. -/
  made : List Nat := []
deriving DecidableEq, Repr

namespace Tokens

/-- Takes a token for a request of its own. -/
def fresh (tokens : Tokens) : Tokens :=
  { tokens with requests := tokens.requests ++ [tokens.requests.foldl max 0 + 1] }

/-- Takes another token for the request of the token at a position. -/
def share (tokens : Tokens) (position : Nat) : Tokens :=
  match tokens.requests[position]? with
  | none => tokens
  | some request => { tokens with requests := tokens.requests ++ [request] }

/-- Makes the request of the token at a position. -/
def cancel (tokens : Tokens) (position : Nat) : Tokens :=
  match tokens.requests[position]? with
  | none => tokens
  | some request => { tokens with made := request :: tokens.made }

/-- For each token whether its request was made. -/
def states (tokens : Tokens) : List Bool :=
  tokens.requests.map fun request => tokens.made.contains request

end Tokens

end RadioBroker
