/-!
# Access to files

What a generation needs of a file system. Operations on files run in any monad that offers these;
what goes wrong in one is told apart no further than its callers do.
-/

namespace RadioBroker

/-- A monad with files. Paths are relative to a working folder. -/
class FileAccess (m : Type → Type) where
  /-- The text of a file, if it can be read. -/
  read : (path : String) → m (Option String)
  /-- Puts a text into a file, which may exist; says whether that could be done. -/
  write : (path text : String) → m Bool
  /-- Whether there is a folder at a path. -/
  isFolder : (path : String) → m Bool
  /-- Whether there is anything at a path, if that can be found out. -/
  present? : (path : String) → m (Option Bool)
  /-- Makes a folder and those around it where they are missing; says whether that could be
  done. -/
  makeFolders : (path : String) → m Bool

end RadioBroker
