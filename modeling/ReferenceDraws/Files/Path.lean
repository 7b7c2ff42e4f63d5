/-!
# Paths

Paths as people write them: names separated by slashes, from the root if the first character is
a slash, else from the working directory. Repeated slashes, and `.` other than at the start, do
not count as names.
-/

namespace ReferenceDraws.Path

/-- Whether a path starts at the root. -/
def isAbsolute (path : String) : Bool := path.toList.head? = some '/'

/-- A path below a directory; an absolute path stands for itself. -/
def join (dir name : String) : String :=
  if isAbsolute name then name
  else if dir.isEmpty || dir.toList.getLast? = some '/' then dir ++ name
  else dir ++ "/" ++ name

/-- The part of a path that is no name: the root, or a dot at the start. -/
def leadLength (cs : List Char) : Nat :=
  match cs with
  | '/' :: _ => 1
  | ['.'] | '.' :: '/' :: _ => 1
  | _ => 0

/-- A reversed path without slashes and dots after its last name. -/
def trimEnd : List Char → List Char
  | '/' :: rest => trimEnd rest
  | '.' :: '/' :: rest => trimEnd rest
  | ['.'] => []
  | cs => cs

/-- The path without its last name, if it has one. -/
def parent? (path : String) : Option String :=
  let cs := path.toList
  let lead := cs.take (leadLength cs)
  match trimEnd (cs.drop (leadLength cs)).reverse with
  | [] => if lead = ['.'] then some "" else none
  | named =>
    let rest := (named.dropWhile (· ≠ '/')).drop 1
    some (String.ofList (lead ++ (trimEnd rest).reverse))

/-- The directory of a path; the working directory for a bare name. -/
def directoryOf (path : String) : String :=
  match parent? path with
  | some dir => if dir.isEmpty then "." else dir
  | none => "."

/-- The parts of a path between slashes. -/
def splitSlashes : List Char → List (List Char)
  | [] => [[]]
  | c :: rest =>
    if c = '/' then [] :: splitSlashes rest
    else
      match splitSlashes rest with
      | part :: parts => (c :: part) :: parts
      | [] => [[c]]

/-- The steps of a path: names and `..`, in order. -/
def steps (path : String) : List String :=
  ((splitSlashes path.toList).filter fun part => part ≠ [] ∧ part ≠ ['.']).map String.ofList

/-- Whether a path can only mean a directory: it ends in a slash, a dot or two. -/
def meansDirectory (path : String) : Bool :=
  match (splitSlashes path.toList).getLast? with
  | some part => part = [] || part = ['.'] || part = ['.', '.']
  | none => true

end ReferenceDraws.Path
