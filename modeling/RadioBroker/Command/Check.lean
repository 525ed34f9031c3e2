import RadioBroker.Command.Basic

/-!
# The check command

Analyses declarations and lists the brokers that would be generated, with their methods and the
startup hook.
-/

namespace RadioBroker.Command

/-- A bound on links, as it is shown. -/
def linksText (bound : Int) : String :=
  if bound = unboundedLinks then "unbounded" else toString bound

/-- The line of a method. -/
def methodLine (method : ServiceMethod) : String :=
  "    " ++ method.interface ++ "." ++ method.name ++ " [" ++ method.kind.display ++ "]\n"

/-- The lines of a service. -/
def serviceLines (model : ServiceModel) (id : TypeId) : String :=
  model.graph.fullName id ++ " -> " ++ model.className id ++ " (max links: " ++
    linksText (model.maxLinks id) ++ ")\n" ++ String.join ((model.methods id).map methodLine)

/-- The lines of all services, in the order of their declarations. -/
def summary (model : ServiceModel) : String :=
  String.join ((model.graph.ids.filter model.isService).map (serviceLines model))

/-- The line of the startup hook. -/
def hookLine (settings : Settings) : String :=
  "startup hook: " ++ settings.moduleNamespace ++ "." ++ settings.moduleClassName ++ "\n"

variable {m : Type → Type} [Monad m] [FileAccess m]

/-- Checks the graph of the declarations at a path. -/
def checkGraph (declarations : String) (settings : Settings) (graph : TypeGraph) :
    m CommandResult := do
  let prepared := (ServiceModel.ofGraph graph).prepare .empty
  let notices ← noticesOf prepared.delivered declarations
  match prepared.outcome with
  | .aborted => pure { notices, failure := some (.fatal true) }
  | .ready =>
    pure
      { output := summary prepared.model ++ hookLine settings
        notices
        failure := failureOf prepared.delivered }

/-- Runs the command on the declarations at a path. -/
def check (declarations : String) (config : Option String) : m CommandResult := do
  match ← loadSettings declarations config with
  | .error cause => pure { failure := some (.config cause) }
  | .ok settings =>
    match ← readDeclarations declarations with
    | .error cause => pure { failure := some (.source declarations cause) }
    | .ok types =>
      match TypeGraph.build types with
      | .error cause => pure { failure := some (.declarations cause) }
      | .ok graph => checkGraph declarations (settings.mergeDeclarations types) graph

end RadioBroker.Command
