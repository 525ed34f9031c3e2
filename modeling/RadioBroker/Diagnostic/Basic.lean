import RadioBroker.Location

/-!
# Diagnostics

A problem that the author of the declarations can mend, and the place it is reported at. Problems
are kept by their cause; number, severity and wording follow from it.
-/

namespace RadioBroker

/-- How much a problem stops. -/
inductive Severity where
  /-- Nothing is generated. -/
  | fatal
  /-- The rest is generated. -/
  | error
  /-- Nothing; it is told and not counted. No problem of declarations is as slight as that. -/
  | warning
deriving DecidableEq, Repr

/-- The word for a severity. -/
def Severity.word : Severity → String
  | fatal => "fatal"
  | error => "error"
  | warning => "warning"

/-- What is wrong with a declaration. -/
inductive Problem where
  /-- A type that encloses a marked interface is not partial. -/
  | notPartialParent (parent : String)
  /-- A marked interface does not extend the base interface. -/
  | missingRadioService
  /-- A method has a return type without dispatch kind. Methods are told apart by the definition
  that declares them and their position in it, so all types closed over one definition share the
  problem. -/
  | unsupportedReturnType (method definition : String) (slot : Nat)
  /-- Two declaring types contribute one method signature. -/
  | duplicateInheritedMethod (method first second : String)
  /-- The bound on links is no positive integer of 32 bits. -/
  | invalidMaxLinks (found : String)
deriving DecidableEq, Repr

namespace Problem

/-- The number under which problems of this kind are known. -/
def code : Problem → String
  | notPartialParent _ => "CCG001"
  | missingRadioService => "CCG002"
  | unsupportedReturnType .. => "CCG003"
  | duplicateInheritedMethod .. => "CCG004"
  | invalidMaxLinks _ => "CCG005"

/-- Only a marked interface without the base interface stops everything. -/
def severity : Problem → Severity
  | missingRadioService => .fatal
  | _ => .error

/-- The heading for problems of this kind. -/
def title : Problem → String
  | notPartialParent _ => "Partial class/struct"
  | missingRadioService => "IRadioService"
  | unsupportedReturnType .. => "Method return type"
  | duplicateInheritedMethod .. => "Duplicate inherited method"
  | invalidMaxLinks _ => "MaxLinks"

/-- The message with a number in braces for each of the arguments. -/
def template : Problem → String
  | notPartialParent _ => "Parent type '\x7b0\x7d' is not a partial class/struct"
  | missingRadioService =>
    "Types with the RadioServiceInterface attribute must derive from IRadioService"
  | unsupportedReturnType .. =>
    "The return type of the method must be void, Task, RadioResult<T>, Task<RadioResult<T>>"
  | duplicateInheritedMethod .. =>
    "Method '\x7b0\x7d' is inherited from both '\x7b1\x7d' and '\x7b2\x7d'"
  | invalidMaxLinks _ => "MaxLinks must be a positive 32-bit integer, found '\x7b0\x7d'"

/-- What the numbers in the template stand for. -/
def arguments : Problem → List String
  | notPartialParent parent => [parent]
  | missingRadioService => []
  | unsupportedReturnType .. => []
  | duplicateInheritedMethod method first second => [method, first, second]
  | invalidMaxLinks found => [found]

/-- The message. -/
def message : Problem → String
  | notPartialParent parent => "Parent type '" ++ parent ++ "' is not a partial class/struct"
  | missingRadioService => template missingRadioService
  | unsupportedReturnType method definition slot =>
    template (unsupportedReturnType method definition slot)
  | duplicateInheritedMethod method first second =>
    "Method '" ++ method ++ "' is inherited from both '" ++ first ++ "' and '" ++ second ++ "'"
  | invalidMaxLinks found =>
    "MaxLinks must be a positive 32-bit integer, found '" ++ found ++ "'"

end Problem

/-- A problem at a place. -/
structure Diagnostic where
  problem : Problem
  location : Location
deriving DecidableEq, Repr

namespace Diagnostic

/-- Whether the problem stops everything. -/
def isFatal (diagnostic : Diagnostic) : Bool := diagnostic.problem.severity = .fatal

/-- The written form of a diagnostic. -/
def display (diagnostic : Diagnostic) : String :=
  diagnostic.problem.severity.word ++ " " ++ diagnostic.problem.code ++ ": " ++
    diagnostic.problem.message ++ " (" ++ diagnostic.location.display ++ ")"

end Diagnostic

end RadioBroker
