import RadioBroker.TypeExpr.Basic

/-!
# Substituting type parameters

`TypeExpr.substitute` puts arguments in the place of parameters. A parameter is a head without
arguments; the marks behind it are kept behind the argument that replaces it. A head that is called
like a parameter but has arguments of its own is another type and stays. Tuples are heads as well,
so what stands inside them is not touched.
-/

namespace RadioBroker.TypeExpr

/-- The argument at the place of the first parameter called `name`. -/
def argumentFor (name : String) : List String → List TypeExpr → Option TypeExpr
  | parameter :: parameters, argument :: arguments =>
    if parameter = name then some argument else argumentFor name parameters arguments
  | _, _ => none

mutual

/-- Puts `arguments` in the place of `parameters`. -/
def substitute (parameters : List String) (arguments : List TypeExpr) : TypeExpr → TypeExpr
  | ⟨head, [], suffix⟩ =>
    ((argumentFor head parameters arguments).getD (named head)).withSuffix suffix
  | ⟨head, first :: others, suffix⟩ =>
    ⟨head, substituteList parameters arguments (first :: others), suffix⟩

/-- Puts `arguments` in the place of `parameters` in several types. -/
def substituteList (parameters : List String) (arguments : List TypeExpr) :
    List TypeExpr → List TypeExpr
  | [] => []
  | t :: ts => substitute parameters arguments t :: substituteList parameters arguments ts

end

@[simp] theorem substituteList_eq_map (parameters : List String) (arguments : List TypeExpr)
    (ts : List TypeExpr) :
    substituteList parameters arguments ts = ts.map (substitute parameters arguments) := by
  induction ts with
  | nil => rfl
  | cons t ts ih => simp [substituteList, ih]

@[simp] theorem substitute_nil (t : TypeExpr) : substitute [] [] t = t := by
  induction t using TypeExpr.rec (motive_2 := fun ts => ts.map (substitute [] []) = ts) with
  | mk head arguments suffix ih =>
    cases arguments with
    | nil => simp [substitute, argumentFor, named, withSuffix]
    | cons first others => simpa [substitute] using ih
  | nil => rfl
  | cons t ts ht hts => rw [List.map_cons, ht, hts]

end RadioBroker.TypeExpr
