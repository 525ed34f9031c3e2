import RadioBroker.Command.Check
import RadioBroker.Command.Generate

/-!
# The command line

What the words behind the name of the program ask for.
-/

namespace RadioBroker.Command

/-- What is asked for. -/
inductive Request where
  | generate (request : GenerateRequest)
  | check (declarations : String) (config : Option String)
deriving DecidableEq, Repr

/-- How the program is called. -/
def usage : String :=
  "usage: generate DECLARATIONS [--config FILE] [--namespace NAME] [--assembly-name NAME]\n" ++
    "         [--no-module-initializer] [--out FOLDER]\n" ++
    "       check DECLARATIONS [--config FILE]\n"

/-- Takes in the words of the generate command. An empty path of declarations is one that has not
been named yet. -/
def readGenerate (request : GenerateRequest) : List String → Option GenerateRequest
  | [] => if request.declarations = "" then none else some request
  | "--config" :: path :: words => readGenerate { request with config := some path } words
  | "--namespace" :: name :: words =>
    readGenerate { request with customNamespace := some name } words
  | "--assembly-name" :: name :: words =>
    readGenerate { request with assemblyName := some name } words
  | "--no-module-initializer" :: words =>
    readGenerate { request with noModuleInitializer := true } words
  | "--out" :: folder :: words => readGenerate { request with outputFolder := some folder } words
  | "-o" :: folder :: words => readGenerate { request with outputFolder := some folder } words
  | word :: words =>
    if request.declarations = "" && !word.startsWith "-" then
      readGenerate { request with declarations := word } words
    else none

/-- Takes in the words of the check command. -/
def readCheck (declarations : String) (config : Option String) :
    List String → Option (String × Option String)
  | [] => if declarations = "" then none else some (declarations, config)
  | "--config" :: path :: words => readCheck declarations (some path) words
  | word :: words =>
    if declarations = "" && !word.startsWith "-" then readCheck word config words else none

/-- What the words ask for, if they ask for anything. -/
def Request.ofWords : List String → Option Request
  | "generate" :: words => (readGenerate { declarations := "" } words).map generate
  | "check" :: words =>
    (readCheck "" none words).map fun (declarations, config) => check declarations config
  | _ => none

variable {m : Type → Type} [Monad m] [FileAccess m]

/-- Does what is asked for. -/
def Request.run (request : Request) (cancelled : m Bool) : m CommandResult :=
  match request with
  | generate request => Command.generate request cancelled
  | check declarations config => Command.check declarations config

end RadioBroker.Command
