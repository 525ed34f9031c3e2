import RadioBroker.Files.Access
import RadioBroker.Path
import RadioBroker.Text.Segment

/-!
# File trees

Files and folders around one working folder, as a value. Reading and writing a tree is what happens
to a file system, without one.

A place is the list of components that lead there from the working folder; it goes up first, if at
all, and an absolute place starts at the root. The folders around the working folder and the root
exist and hold nothing that the tree does not say. Nothing can be put at an absolute place.
-/

namespace RadioBroker

/-- What stands at a place of a tree. -/
inductive FileEntry where
  | file (text : String)
  | folder
deriving DecidableEq, Repr

/-- The entries, each at its place. The working folder, the folders around it and the root are no
entries. -/
structure FileTree where
  entries : List (List String × FileEntry) := []
deriving Repr

namespace FileTree

/-- Why a path leads nowhere. -/
inductive Missing where
  /-- There is nothing at the path. -/
  | absent
  /-- The path leads through a file, or no file can have such a path. -/
  | blocked
deriving DecidableEq, Repr

/-- How it ends to make a folder. -/
inductive Making where
  | made (tree : FileTree)
  /-- There is something at the path already. -/
  | taken
  /-- The folder cannot be made. -/
  | failed (cause : Missing)
deriving Repr

/-- The place of the root. -/
def root : List String := ["/"]

/-- Whether a place is the working folder or one of the folders around it. -/
def isAround (place : List String) : Bool := place.all (· = "..")

/-- Where a path starts. -/
def start (path : String) : List String := if Path.isAbsolute path then root else []

/-- The place of the folder that a place lies in. The root lies in itself. -/
def outer (place : List String) : List String :=
  if place = root then root
  else if isAround place then place ++ [".."]
  else place.dropLast

/-- The entry at a place. -/
def entry? (tree : FileTree) (place : List String) : Option FileEntry :=
  if place = root || isAround place then some .folder else tree.entries.lookup place

/-- The longest name of a file, in bytes. -/
def nameLimit : Nat := 255

/-- Whether a component can be the name of a file. -/
def isName (component : String) : Bool := component.utf8ByteSize ≤ nameLimit

/-- The longest path, in bytes. -/
def pathLimit : Nat := 4095

/-- Whether a path can be followed at all. -/
def isPath (path : String) : Bool :=
  path.utf8ByteSize ≤ pathLimit && !path.toList.contains '\x00'

/-- Goes along components from a place that is a folder. -/
def walk (tree : FileTree) (place : List String) : List String → Except Missing (List String)
  | [] => .ok place
  | component :: rest =>
    if component = ".." then tree.walk (outer place) rest
    else if !isName component then .error .blocked
    else
      let next := place ++ [component]
      match tree.entry? next with
      | none => .error .absent
      | some (.file _) => if rest.isEmpty then .ok next else .error .blocked
      | some .folder => tree.walk next rest

/-- Whether only a folder can be meant by a path. -/
def meansFolder (path : String) : Bool :=
  match path.toList.reverse with
  | '/' :: _ => true
  | '.' :: '/' :: _ => true
  | ['.'] => true
  | _ => false

/-- The place and the entry that a path leads to. -/
def locate (tree : FileTree) (path : String) : Except Missing (List String × FileEntry) := do
  if !isPath path then .error .blocked
  else if path = "" then .error .absent
  else
    let place ← tree.walk (start path) (Path.components path)
    match tree.entry? place with
    | none => .error .absent
    | some .folder => .ok (place, .folder)
    | some (.file text) =>
      if meansFolder path then .error .blocked else .ok (place, .file text)

/-- Puts an entry at a place. -/
def put (tree : FileTree) (place : List String) (entry : FileEntry) : FileTree :=
  ⟨tree.entries.filter (fun other => other.1 ≠ place) ++ [(place, entry)]⟩

/-- The text of the file at a path. -/
def read? (tree : FileTree) (path : String) : Option String :=
  match tree.locate path with
  | .ok (_, .file text) => some text
  | _ => none

/-- Whether there is a folder at a path. -/
def isFolder (tree : FileTree) (path : String) : Bool :=
  match tree.locate path with
  | .ok (_, .folder) => true
  | _ => false

/-- Whether there is anything at a path, if the path can be followed. -/
def present? (tree : FileTree) (path : String) : Option Bool :=
  match tree.locate path with
  | .ok _ => some true
  | .error .absent => some false
  | .error .blocked => none

/-- The tree with a text in the file at a path, whose folder has to be there. -/
def write? (tree : FileTree) (path text : String) : Option FileTree :=
  if !isPath path || path = "" || Path.isAbsolute path || meansFolder path then none
  else
    match (Path.components path).reverse with
    | [] => none
    | name :: around =>
      if name = ".." || !isName name then none
      else
        match tree.walk [] around.reverse with
        | .error _ => none
        | .ok place =>
          match tree.entry? place, tree.entry? (place ++ [name]) with
          | some .folder, some .folder => none
          | some .folder, _ => some (tree.put (place ++ [name]) (.file text))
          | _, _ => none

/-- Makes the folder at a path. The folder around it has to be there. A path that ends in dots leads
to a folder that is there, or nowhere. -/
def makeFolder (tree : FileTree) (path : String) : Making :=
  if !isPath path then .failed .blocked
  else
    match (Path.segments path).reverse with
    | [] => if Path.isAbsolute path then .taken else .failed .absent
    | name :: around =>
      match tree.walk (start path) (around.reverse.filter (· ≠ ".")) with
      | .error cause => .failed cause
      | .ok place =>
        match tree.entry? place, tree.entry? (place ++ [name]) with
        | some .folder, found =>
          if name = "." || name = ".." || found.isSome then .taken
          else if isName name && !Path.isAbsolute path then
            .made (tree.put (place ++ [name]) .folder)
          else .failed .blocked
        | _, _ => .failed .blocked

/-- The tree with the folder at the first of some paths, where each path lies in the next one.
Folders are made from the first path on that can be made or is there. -/
def makeAll (tree : FileTree) : List String → Option FileTree
  | [] => some tree
  | path :: around =>
    match tree.makeFolder path with
    | .made next => some next
    | .taken => if tree.isFolder path then some tree else none
    | .failed .blocked => none
    | .failed .absent => do
      let below ← tree.makeAll around
      match below.makeFolder path with
      | .made next => some next
      | .taken => if below.isFolder path then some below else none
      | .failed _ => none

/-- The tree with the folder at a path, made where it is missing. -/
def makeFolders? (tree : FileTree) (path : String) : Option FileTree :=
  tree.makeAll (Path.ancestors path)

/-- The tree with a file at a path, and the folders around it. -/
def addFile (tree : FileTree) (path text : String) : FileTree :=
  let around := (tree.makeFolders? ((Path.parent? path).getD "")).getD tree
  (around.write? path text).getD around

/-- The files below the working folder, with their paths. -/
def files (tree : FileTree) : List (String × String) :=
  tree.entries.filterMap fun (place, entry) =>
    match entry with
    | .file text =>
      if place.head? = some ".." then none else some (String.intercalate "/" place, text)
    | .folder => none

/-- Replaces the tree, if there is a new one; says whether there is. -/
def commit (next : Option FileTree) (tree : FileTree) : Bool × FileTree :=
  match next with
  | none => (false, tree)
  | some next => (true, next)

instance : FileAccess (StateM FileTree) where
  read path := fun tree => (tree.read? path, tree)
  write path text := fun tree => commit (tree.write? path text) tree
  isFolder path := fun tree => (tree.isFolder path, tree)
  present? path := fun tree => (tree.present? path, tree)
  makeFolders path := fun tree => commit (tree.makeFolders? path) tree

end FileTree

end RadioBroker
