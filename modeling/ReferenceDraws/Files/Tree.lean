import ReferenceDraws.Files.Path
import ReferenceDraws.OrderedMap
import ReferenceDraws.Text.Utf8

/-!
# File trees

A file system as a value: files and directories by location, with no links between them, and a
working directory from which relative paths start. Operations refuse what a file system refuses:
missing directories on the way, names and paths that are too long, characters that no name holds,
and directories in which nothing can be made.
-/

namespace ReferenceDraws

/-- A place in a file tree: the names from the root on. -/
abbrev Location := List String

/-- What stands at a location. -/
inductive FileTree.Entry where
  | file (bytes : List UInt8)
  | directory
deriving DecidableEq

/-- A file system. The root is a directory without an entry. -/
structure FileTree where
  /-- Files and directories. -/
  entries : OrderedMap Location FileTree.Entry
  /-- Where relative paths start. -/
  workDir : Location
  /-- Directories in which nothing can be made. -/
  guarded : List Location := []

namespace FileTree

/-- Why a file system refuses an operation. -/
inductive Fault where
  | notFound
  | notADirectory
  | isADirectory
  | alreadyExists
  | nameTooLong
  | invalidName
  | denied
deriving DecidableEq

/-- What a fault is called. -/
def Fault.message : Fault → String
  | .notFound => "no such file or directory"
  | .notADirectory => "not a directory"
  | .isADirectory => "is a directory"
  | .alreadyExists => "file exists"
  | .nameTooLong => "file name too long"
  | .invalidName => "file name contained an unexpected NUL byte"
  | .denied => "permission denied"

/-- The entry at a location. -/
def get? (t : FileTree) (l : Location) : Option Entry := t.entries.get? l

/-- Whether a location is a directory. -/
def isDirectoryAt (t : FileTree) (l : Location) : Bool :=
  l.isEmpty || t.get? l = some .directory

/-- A tree with an entry at a location. -/
def put (t : FileTree) (l : Location) (e : Entry) : FileTree :=
  { t with entries := t.entries.insert l e }

/-- A tree without the entry at a location. -/
def drop (t : FileTree) (l : Location) : FileTree := { t with entries := t.entries.erase l }

/-! ## Where a path leads -/

/-- Where a path leads. -/
inductive Target where
  /-- To a name in a directory, whether or not there is an entry of that name; `asDirectory`
  says that the path can only mean a directory. -/
  | name (dir : Location) (name : String) (asDirectory : Bool)
  /-- To a directory that is not named: the root, the working directory, or one above. -/
  | directory (l : Location)

/-- The most bytes of a name. -/
def maxName : Nat := 255

/-- The most bytes of a path. -/
def maxPath : Nat := 4095

/-- Follows steps from a directory. -/
def follow (t : FileTree) (asDirectory : Bool) : Location → List String → Except Fault Target
  | dir, [] => .ok (.directory dir)
  | dir, step :: rest =>
    if maxName < step.utf8ByteSize then .error .nameTooLong
    else if step = ".." then follow t asDirectory dir.dropLast rest
    else if rest.isEmpty then .ok (.name dir step asDirectory)
    else
      match t.get? (dir ++ [step]) with
      | some .directory => follow t asDirectory (dir ++ [step]) rest
      | some (.file _) => .error .notADirectory
      | none => .error .notFound

/-- Where a path leads. -/
def locate (t : FileTree) (path : String) : Except Fault Target :=
  if path.isEmpty then .error .notFound
  else if path.toList.contains '\x00' then .error .invalidName
  else if maxPath < path.utf8ByteSize then .error .nameTooLong
  else
    t.follow (Path.meansDirectory path) (if Path.isAbsolute path then [] else t.workDir)
      (Path.steps path)

/-! ## Reading -/

/-- Opens a file or directory: its bytes, or none for a directory, which opens but has none. -/
def openPath (t : FileTree) (path : String) : Except Fault (Option (List UInt8)) := do
  match ← t.locate path with
  | .directory _ => pure none
  | .name dir name asDirectory =>
    match t.get? (dir ++ [name]) with
    | none => throw .notFound
    | some .directory => pure none
    | some (.file bytes) => if asDirectory then throw .notADirectory else pure (some bytes)

/-- The bytes of a file. -/
def read (t : FileTree) (path : String) : Except Fault (List UInt8) := do
  match ← t.openPath path with
  | some bytes => pure bytes
  | none => throw .isADirectory

/-- Whether a path leads to a directory. -/
def isDirectory (t : FileTree) (path : String) : Bool :=
  match t.openPath path with
  | .ok none => true
  | _ => false

/-! ## Writing -/

/-- Makes a directory in an existing one. -/
def makeDirectory (t : FileTree) (path : String) : Except Fault FileTree := do
  match ← t.locate path with
  | .directory _ => throw .alreadyExists
  | .name dir name _ =>
    if (t.get? (dir ++ [name])).isSome then throw .alreadyExists
    else if t.guarded.contains dir then throw .denied
    else pure (t.put (dir ++ [name]) .directory)

/-- Makes a directory and those above it that are missing, in at most so many levels. What has been
made stays, also if a later one is refused. -/
def makeDirectoriesIn : Nat → FileTree → String → FileTree × Except Fault Unit
  | 0, t, _ => (t, .error .notFound)
  | levels + 1, t, path =>
    match t.makeDirectory path with
    | .ok t => (t, .ok ())
    | .error .notFound =>
      match Path.parent? path with
      | none => (t, .error .notFound)
      | some above =>
        match if above.isEmpty then (t, .ok ()) else makeDirectoriesIn levels t above with
        | (t, .error f) => (t, .error f)
        | (t, .ok ()) =>
          match t.makeDirectory path with
          | .ok t => (t, .ok ())
          | .error f => (t, if t.isDirectory path then .ok () else .error f)
    | .error f => (t, if t.isDirectory path then .ok () else .error f)

/-- Makes a directory and those above it that are missing. -/
def makeDirectories (t : FileTree) (path : String) : FileTree × Except Fault Unit :=
  makeDirectoriesIn (path.length + 1) t path

/-- The location that a file can be put at: no directory stands there. -/
def fileTarget (t : FileTree) (path : String) : Except Fault Location := do
  match ← t.locate path with
  | .directory _ => throw .isADirectory
  | .name dir name asDirectory =>
    let l := dir ++ [name]
    if asDirectory then throw .notADirectory
    else if t.isDirectoryAt l then throw .isADirectory
    else if t.guarded.contains dir then throw .denied
    else pure l

/-- Writes a file in place. -/
def write (t : FileTree) (path : String) (bytes : List UInt8) : Except Fault FileTree := do
  let l ← t.fileTarget path
  pure (t.put l (.file bytes))

/-- Removes a file, or a directory with all that is below it. -/
def remove (t : FileTree) (path : String) : Except Fault FileTree := do
  match ← t.locate path with
  | .directory _ => throw .denied
  | .name dir name _ =>
    let l := dir ++ [name]
    if (t.get? l).isNone then throw .notFound
    else pure ((t.entries.keys.filter (l.isPrefixOf ·)).foldl drop t)

/-! ## Listing -/

/-- What is below a directory, by path from there. -/
def below (t : FileTree) (dir : Location) : List (Location × Entry) :=
  t.entries.entries.filterMap fun (l, e) =>
    if dir.isPrefixOf l ∧ dir ≠ l then some (l.drop dir.length, e) else none

/-- The path of a location from a directory above it; a directory's ends in a slash. -/
def pathText (l : Location) (e : Entry) : String :=
  "/".intercalate l ++ (if e = .directory then "/" else "")

/-- The paths of everything below a directory, in order. -/
def listing (t : FileTree) (dir : Location) : List String :=
  ((t.below dir).map fun (l, e) => pathText l e).mergeSort fun a b => !(b < a)

end FileTree

end ReferenceDraws
