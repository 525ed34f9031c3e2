import RadioBroker.Diagnostic.Basic
import RadioBroker.ServiceModel.Basic

/-!
# Candidate methods

The methods that a broker may have to offer: those the service declares itself and those declared by
the interfaces it extends, in order. The first candidate of a signature stands for it. It is offered
if its return type has a dispatch kind, and reported otherwise; all later ones are reported as
duplicates.
-/

namespace RadioBroker

/-- A method with where it comes from. -/
structure Candidate where
  method : Method
  /-- The interface, as a broker writes it in front of the method. -/
  interface : String
  /-- The full name of the declaring type. -/
  declaring : String
  /-- The full name of the definition of the declaring type. -/
  definition : String
  /-- The position of the method in its declaring type. -/
  slot : Nat
deriving DecidableEq, Repr

namespace Candidate

/-- Whether two candidates have one name and the same written parameters. -/
def sameSignature (first second : Candidate) : Bool :=
  first.method.name = second.method.name &&
    first.method.parameters.map TypeExpr.display = second.method.parameters.map TypeExpr.display

/-- What becomes of a candidate. -/
inductive Verdict where
  | accepted (method : ServiceMethod)
  | rejected (diagnostic : Diagnostic)
deriving DecidableEq, Repr

/-- The method to offer. -/
def Verdict.method? : Verdict → Option ServiceMethod
  | accepted method => some method
  | rejected _ => none

/-- The diagnostic to report. -/
def Verdict.diagnostic? : Verdict → Option Diagnostic
  | accepted _ => none
  | rejected diagnostic => some diagnostic

/-- The report of a candidate whose signature the `first` one has already. -/
def duplicateDiagnostic (first candidate : Candidate) : Diagnostic :=
  ⟨.duplicateInheritedMethod candidate.method.name first.declaring candidate.declaring,
    candidate.method.location⟩

/-- The report of a candidate whose return type has no dispatch kind. -/
def unsupportedDiagnostic (candidate : Candidate) : Diagnostic :=
  ⟨.unsupportedReturnType candidate.method.name candidate.definition candidate.slot,
    candidate.method.location⟩

/-- Judges the first candidate of a signature by its return type. -/
def judgeKind (candidate : Candidate) : Verdict :=
  let method := candidate.method
  let ⟨kind, result⟩ := method.returnType.classify
  if kind = .other then .rejected candidate.unsupportedDiagnostic
  else
    .accepted ⟨method.name, method.parameters, method.returnType, kind, result,
      candidate.interface, method.location⟩

end Candidate

namespace TypeGraph

/-- The methods that a type declares itself, to be offered for `interface`. -/
def declaredCandidates (graph : TypeGraph) (node : TypeNode) (interface : String) :
    List Candidate :=
  let declaration := node.declaration
  declaration.methods.zipIdx.filterMap fun (method, slot) =>
    if declaration.owns method then
      some ⟨method, interface, declaration.fullName, graph.fullName node.definition, slot⟩
    else none

/-- The methods that a mentioned interface declares. -/
def inheritedCandidates (graph : TypeGraph) (t : TypeExpr) : List Candidate :=
  match graph.declared? t.display with
  | none => []
  | some node => graph.declaredCandidates node t.display

/-- The candidates for a broker of the type at `id`. -/
def candidates (graph : TypeGraph) (id : TypeId) : List Candidate :=
  match graph.node? id with
  | none => []
  | some node =>
    graph.declaredCandidates node node.declaration.localName ++
      (graph.allInterfaces id).flatMap graph.inheritedCandidates

end TypeGraph

end RadioBroker
