import RadioBroker.Text.Segment

/-!
# Paths

Paths are texts whose components stand between slashes. Empty components and components that are a
single dot mean nothing, but for a dot in front of a relative path; a path that starts with a slash
is absolute. Paths are not looked up.
-/

namespace RadioBroker.Path

/-- Whether a path starts at the root. -/
def isAbsolute (path : String) : Bool :=
  path.toList.head? = some '/'

/-- `path` below `base`; an absolute path stands alone. -/
def join (base path : String) : String :=
  if isAbsolute path then path
  else if base = "" || base.toList.getLast? = some '/' then base ++ path
  else base ++ "/" ++ path

/-- The root or the dot in front of a path, and the rest. -/
def splitLead : List Char → List Char × List Char
  | '/' :: rest => (['/'], rest)
  | ['.'] => (['.'], [])
  | '.' :: '/' :: rest => (['.'], '/' :: rest)
  | path => ([], path)

/-- Drops what means nothing from the front of a path that is written backwards. -/
def trim : List Char → List Char
  | [] => []
  | ['.'] => []
  | '/' :: rest => trim rest
  | '.' :: '/' :: rest => trim rest
  | path => path

/-- The path without its last component; the root and the empty path have none. -/
def parent? (path : String) : Option String :=
  let (lead, body) := splitLead path.toList
  match trim body.reverse with
  | [] => if lead = ['.'] then some "" else none
  | backwards =>
    some (String.ofList (lead ++ (trim (backwards.dropWhile (· ≠ '/'))).reverse))

/-- A path and the paths of the folders around it, innermost first, at most `steps` of them. -/
def climb : (steps : Nat) → (path : String) → List String
  | 0, _ => []
  | steps + 1, path =>
    if path = "" then []
    else path :: ((parent? path).map (climb steps)).getD []

/-- A path and the paths of the folders around it, innermost first. The empty path is none of them.
No path lies in more folders than it has characters. -/
def ancestors (path : String) : List String := climb path.length path

/-- The nonempty components of a path, in order. -/
def segments (path : String) : List String :=
  ((path.toList.splitOn '/').map String.ofList).filter (· ≠ "")

/-- The components of a path that mean something, in order. -/
def components (path : String) : List String := (segments path).filter (· ≠ ".")

end RadioBroker.Path
