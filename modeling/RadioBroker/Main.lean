import RadioBroker.Command.Line

/-!
# The program

Reads the words of the command line, runs the command on the files of the machine and prints what it
says: sources and summaries to the output, notices and errors beside it.
-/

namespace RadioBroker

/-- Whether an operation on files can be done. -/
def succeeds {α : Type} (operation : IO α) : IO Bool := do
  try
    discard operation
    pure true
  catch _ => pure false

instance : FileAccess IO where
  read path := do
    try
      let text ← IO.FS.readFile path
      pure (some text)
    catch _ => pure none
  write path text := succeeds (IO.FS.writeFile path text)
  isFolder path := if path = "" then pure false else succeeds (IO.FS.realPath (path ++ "/."))
  present? path := do
    try
      discard (IO.FS.realPath path)
      pure (some true)
    catch
      | .noFileOrDirectory .. => pure (some false)
      | _ => pure none
  makeFolders path := if path = "" then pure true else succeeds (IO.FS.createDirAll path)

/-- Prints a notice. -/
def printNotice (notice : Notice) : IO Unit := do
  IO.eprintln (notice.diagnostic.problem.code ++ ": " ++ notice.message)
  match notice.help with
  | some help => IO.eprintln ("  help: " ++ help)
  | none => pure ()

/-- Prints what a command says. Its success is the status of the program. -/
def printResult (result : CommandResult) : IO UInt32 := do
  result.notices.forM printNotice
  IO.eprint result.writtenText
  IO.print result.output
  match result.failure with
  | none => pure 0
  | some failure =>
    IO.eprintln ("Error: " ++ failure.message)
    match failure.cause? with
    | some cause => IO.eprintln ("  caused by: " ++ cause)
    | none => pure ()
    pure 1

end RadioBroker

/-- Runs the program on the words of the command line. -/
def main (words : List String) : IO UInt32 := do
  match RadioBroker.Command.Request.ofWords words with
  | none =>
    IO.eprint RadioBroker.Command.usage
    pure 2
  | some request => RadioBroker.printResult (← request.run (pure false))
