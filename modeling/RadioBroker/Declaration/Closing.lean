import RadioBroker.Declaration.Basic
import RadioBroker.TypeExpr.Parser
import RadioBroker.TypeExpr.Substitution

/-!
# Closing generic definitions

`Declaration.close` applies an open definition to arguments. The closed type has the members of the
definition with the arguments in place of the parameters; it has no attributes of its own.
-/

namespace RadioBroker

/-- Why a definition cannot be applied to arguments. -/
inductive CloseError where
  /-- The type is no definition over type parameters. -/
  | notOpen (name : String)
  /-- The number of arguments is not that of the parameters. -/
  | arity (name : String) (expected found : Nat)
  /-- An argument is not written as a type. -/
  | argument (written : String) (cause : TypeExpr.ParseError)
deriving DecidableEq, Repr

/-- The text of an error. -/
def CloseError.message : CloseError → String
  | notOpen name => "'" ++ name ++ "' is not an open generic definition"
  | arity name expected found =>
    "'" ++ name ++ "' takes " ++ toString expected ++ " type argument(s), found " ++ toString found
  | argument written cause =>
    "invalid generic argument '" ++ written ++ "': " ++ cause.message

/-- A method of a closed type: the arguments stand for the parameters, and a declaring type that is
written down becomes the closed type. -/
def Method.close (method : Method) (parameters : List String) (arguments : List TypeExpr)
    (closedName : String) : Method :=
  { method with
    returnType := method.returnType.substitute parameters arguments
    parameters := method.parameters.map (TypeExpr.substitute parameters arguments)
    declaredIn := method.declaredIn.map fun _ => closedName }

namespace Declaration

/-- The full name of a definition applied to `arguments`. -/
def closedName (definition : Declaration) (arguments : List TypeExpr) : String :=
  definition.familyName ++ Text.angled (arguments.map TypeExpr.display)

/-- The definition applied to as many arguments as it has `parameters`. -/
def closeOver (definition : Declaration) (parameters : List String)
    (arguments : List TypeExpr) : Declaration :=
  { definition with
    fullName := definition.closedName arguments
    generics := .closedOver definition.fullName arguments
    attributes := []
    interfaces := definition.interfaces.map (TypeExpr.substitute parameters arguments)
    methods := definition.methods.map fun method =>
      method.close parameters arguments (definition.closedName arguments) }

/-- Applies an open definition to arguments. -/
def close (definition : Declaration) (arguments : List TypeExpr) :
    Except CloseError Declaration :=
  match definition.generics with
  | .openOver parameters =>
    if parameters.length = arguments.length then .ok (definition.closeOver parameters arguments)
    else .error (.arity definition.fullName parameters.length arguments.length)
  | _ => .error (.notOpen definition.fullName)

/-- The types that texts write, or the first text that writes none. -/
def readArguments (texts : List String) : Except CloseError (List TypeExpr) :=
  texts.mapM fun text => (TypeExpr.parse text).mapError (CloseError.argument text)

/-- Applies an open definition to written arguments. -/
def instantiate (definition : Declaration) (arguments : List String) :
    Except CloseError Declaration := do
  definition.close (← readArguments arguments)

theorem close_eq_ok_iff {definition closed : Declaration} {arguments : List TypeExpr} :
    definition.close arguments = .ok closed ↔
      ∃ parameters, definition.generics = .openOver parameters ∧
        parameters.length = arguments.length ∧
        definition.closeOver parameters arguments = closed := by
  unfold close
  split
  · rename_i parameters hgenerics
    by_cases hlength : parameters.length = arguments.length
    · simp [hgenerics, hlength]
    · simp [hgenerics, hlength]
  · rename_i hgenerics
    constructor
    · nofun
    · rintro ⟨parameters, hopen, -⟩
      exact absurd hopen (hgenerics parameters)

end Declaration

end RadioBroker
