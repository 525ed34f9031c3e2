import RadioBroker.TypeExpr.Basic

/-!
# Dispatch kinds

How a broker spreads a call over its subscribers and puts their answers together. The return type
of a method decides it, by its shape alone: the definition and the number of arguments, with no mark
behind them.
-/

namespace RadioBroker

/-- How a broker method treats its subscribers' answers. -/
inductive DispatchKind where
  /-- The return type has none of the shapes below. -/
  | other
  /-- `void`: nothing is answered. -/
  | void
  /-- `RadioResult<T>`: every subscriber may answer with a value. -/
  | singleResult
  /-- `Task`: every subscriber answers with a pending operation. -/
  | asyncVoid
  /-- `Task<RadioResult<T>>`: a pending operation that may yield a value. -/
  | asyncSingleResult
deriving DecidableEq, Inhabited, Repr

namespace DispatchKind

/-- Whether the broker method waits for pending operations. -/
def isAsync : DispatchKind → Bool
  | asyncVoid | asyncSingleResult => true
  | _ => false

/-- Whether there is a type of single values. -/
def hasResult : DispatchKind → Bool
  | singleResult | asyncSingleResult => true
  | _ => false

/-- The written form of a kind. -/
def display : DispatchKind → String
  | other => "other"
  | void => "void"
  | singleResult => "single-result"
  | asyncVoid => "async-void"
  | asyncSingleResult => "async-single-result"

end DispatchKind

/-- The full name of the definition of results. -/
def radioResultName : String := "CrossChannel.RadioResult"

/-- The full name of the definitions of pending operations. -/
def taskName : String := "System.Threading.Tasks.Task"

/-- A dispatch kind, and the type of the single values if there are any. -/
structure Classification where
  kind : DispatchKind
  result : Option TypeExpr
deriving DecidableEq, Repr

namespace TypeExpr

/-- The type of the values in a result. -/
def resultOf? (t : TypeExpr) : Option TypeExpr :=
  if t.isDefinition radioResultName 1 then t.arguments.head? else none

/-- Classifies a return type. -/
def classify (t : TypeExpr) : Classification :=
  if t.isDefinition "void" 0 then ⟨.void, none⟩
  else if t.isDefinition taskName 0 then ⟨.asyncVoid, none⟩
  else
    match t.resultOf? with
    | some result => ⟨.singleResult, some result⟩
    | none =>
      if t.isDefinition taskName 1 then
        match t.arguments.head?.bind resultOf? with
        | some result => ⟨.asyncSingleResult, some result⟩
        | none => ⟨.other, none⟩
      else ⟨.other, none⟩

theorem classify_result_isSome (t : TypeExpr) :
    t.classify.result.isSome = t.classify.kind.hasResult := by
  unfold classify
  repeat' split
  all_goals rfl

end TypeExpr

end RadioBroker
