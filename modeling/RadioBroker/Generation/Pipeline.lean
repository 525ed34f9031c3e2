import RadioBroker.Declaration.Reader
import RadioBroker.Generation.Output
import RadioBroker.ServiceModel.Preparation
import RadioBroker.Settings.Basic
import RadioBroker.TypeGraph.Build

/-!
# Generating step by step

One generation takes declarations and settings, prepares a model and hands out one unit after the
other as soon as it is finished. Before the preparation, before each namespace and before each of
its roots it asks whether it is cancelled; units that were handed out by then stay. Where units go
and who cancels is left to the monad that the generation runs in.
-/

namespace RadioBroker

/-- Why declarations cannot be had. -/
inductive SourceError where
  /-- A file cannot be read. -/
  | unreadable (path : String)
  /-- The text holds no declarations. -/
  | badText (cause : Json.ReadError)
deriving DecidableEq, Repr

/-- The text of an error, for errors that have one of their own. -/
def SourceError.message : SourceError → String
  | unreadable path => "failed to read declarations from '" ++ path ++ "'"
  | badText _ => "malformed declarations"

/-- A file that cannot be written. -/
structure OutputError where
  path : String
deriving DecidableEq, Repr

/-- The text of an error. -/
def OutputError.message (error : OutputError) : String :=
  "failed to write '" ++ error.path ++ "'"

/-- Why a generation ends early. Problems in the declarations are diagnostics instead. -/
inductive GenerateError where
  | source (cause : SourceError)
  | model (cause : BuildError)
  | synthesis (cause : SynthesisError)
  | output (cause : OutputError)
  | cancelled
deriving DecidableEq, Repr

/-- The text of an error. -/
def GenerateError.message : GenerateError → String
  | source _ => "failed to read declarations"
  | model _ => "invalid declaration set"
  | synthesis cause => cause.message
  | output _ => "failed to write generated output"
  | cancelled => "generation was cancelled"

/-- The error that a failed synthesis is for a generation. -/
def GenerateError.ofSynthesis : SynthesisError → GenerateError
  | .cancelled => .cancelled
  | .unchecked name => .synthesis (.unchecked name)

/-- How a generation went that did not end early. -/
structure RunSummary where
  /-- The settings after the declarations had their say. -/
  settings : Settings
  /-- Whether something fatal was reported. -/
  aborted : Bool
  /-- The number of units handed out. -/
  emitted : Nat
deriving DecidableEq, Repr

/-- What was reported in a generation, and how it ended. -/
structure Report (α : Type) where
  diagnostics : List Diagnostic
  result : Except GenerateError α

/-- The same report with another result. -/
def Report.map {α β : Type} (f : α → β) (report : Report α) : Report β :=
  ⟨report.diagnostics, report.result.map f⟩

/-- A generation that ended before anything was reported. -/
def Report.failed {α : Type} (error : GenerateError) : Report α := ⟨[], .error error⟩

/-- Where units go, and whether the generation is to go on. -/
structure Channel (m : Type → Type) where
  /-- Takes a finished unit. -/
  emit : GeneratedUnit → m (Except OutputError Unit)
  /-- Whether the generation is cancelled by now. -/
  cancelled : m Bool

namespace Channel

variable {m : Type → Type} [Monad m]

/-- Hands out a unit. -/
def send (channel : Channel m) (unit : GeneratedUnit) : ExceptT GenerateError m Unit := do
  match ← channel.emit unit with
  | .ok () => pure ()
  | .error error => throw (.output error)

/-- Ends the generation if it is cancelled by now. -/
def checkpoint (channel : Channel m) : ExceptT GenerateError m Unit := do
  if ← channel.cancelled then throw .cancelled

/-- A step of the synthesis. -/
def lift {α : Type} (result : Except SynthesisError α) : ExceptT GenerateError m α :=
  match result with
  | .ok value => pure value
  | .error error => throw (.ofSynthesis error)

/-- What roots of a namespace yield, behind what was `yielded` before. The generation may be
cancelled before each of them. -/
def yieldRoots (channel : Channel m) (model : ServiceModel) (yielded : ServiceModel.Yield) :
    List TypeId → ExceptT GenerateError m ServiceModel.Yield
  | [] => pure yielded
  | root :: roots => do
    channel.checkpoint
    let extended ← lift (yielded.extend fun withRoutine => model.piecesOf withRoutine root)
    channel.yieldRoots model extended roots

/-- Hands out the units of namespaces. Returns the types that have got a routine by then, and the
number of units. -/
def sendNamespaces (channel : Channel m) (model : ServiceModel) (withRoutine : List TypeId)
    (emitted : Nat) : List (String × List TypeId) → ExceptT GenerateError m (List TypeId × Nat)
  | [] => pure (withRoutine, emitted)
  | (name, roots) :: rest => do
    channel.checkpoint
    let yielded ← channel.yieldRoots model ⟨[], withRoutine⟩ roots
    if yielded.pieces.isEmpty then
      channel.sendNamespaces model yielded.withRoutine emitted rest
    else
      channel.send (.ofNamespace ⟨name, Piece.items yielded.pieces⟩)
      channel.sendNamespaces model yielded.withRoutine (emitted + 1) rest

/-- Hands out all units of a prepared model, the root unit last. Returns their number. -/
def sendAll (channel : Channel m) (model : ServiceModel) (settings : Settings) :
    ExceptT GenerateError m Nat := do
  let (withRoutine, emitted) ← channel.sendNamespaces model [] 0 model.namespaces
  let root ← lift (model.levelRoutine withRoutine model.rootLevel)
  channel.send (.ofRoot root settings.hook)
  pure (emitted + 1)

/-- Generates from declarations with settings that are final. -/
def generateWith (channel : Channel m) (settings : Settings) (declarations : List Declaration) :
    m (Report RunSummary) := do
  match TypeGraph.build declarations with
  | .error error => pure (.failed (.model error))
  | .ok graph =>
    if ← channel.cancelled then pure (.failed .cancelled)
    else
      let prepared := (ServiceModel.ofGraph graph).prepare .empty
      match prepared.outcome with
      | .aborted => pure ⟨prepared.delivered, .ok ⟨settings, true, 0⟩⟩
      | .ready =>
        let result ← (channel.sendAll prepared.model settings).run
        pure ⟨prepared.delivered, result.map fun emitted => ⟨settings, false, emitted⟩⟩

/-- Generates from declarations, whose settings attribute overrides `settings`. -/
def generate (channel : Channel m) (settings : Settings) (declarations : List Declaration) :
    m (Report RunSummary) :=
  channel.generateWith (settings.mergeDeclarations declarations) declarations

end Channel

end RadioBroker
