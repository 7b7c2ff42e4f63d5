import ReferenceDraws.CommandLine.Run
import Std.Time

/-!
# The program

Takes the files that the command line names from the disk, runs the command on them, and brings what
it wrote back to the disk.
-/

namespace ReferenceDraws.Program

/-- The path of a location. -/
def pathOf (l : Location) : String := "/" ++ "/".intercalate l

/-- Takes what stands at a location into a tree, if anything does. -/
def takeAt (t : FileTree) (l : Location) : IO FileTree := do
  let path := (← IO.currentDir) / pathOf l
  if ← path.isDir then pure (t.put l .directory)
  else if ← path.pathExists then pure (t.put l (.file (← IO.FS.readBinFile path).toList))
  else pure t

/-- The locations that a path passes from a directory on. -/
def passed (l : Location) : List String → List Location
  | [] => []
  | step :: rest =>
    let next := if step = ".." then l.dropLast else l ++ [step]
    next :: passed next rest

/-- Takes what a path passes and leads to into a tree. -/
def takePath (t : FileTree) (path : String) : IO FileTree :=
  (passed (if Path.isAbsolute path then [] else t.workDir) (Path.steps path)).foldlM takeAt t

/-- The files that a command line names, as they are on the disk. -/
def snapshot (args : List String) : IO FileTree := do
  let workDir := (← IO.currentDir).components.filter (!·.isEmpty)
  let t : FileTree := { entries := .empty, workDir }
  let t ← (passed [] workDir).foldlM takeAt t
  match CommandLine.Invocation.ofArguments args with
  | .ok i => i.command.paths.foldlM takePath t
  | .error _ => pure t

/-- Brings an entry to the disk; a file is complete before it stands at its place. -/
def bring (l : Location) : FileTree.Entry → IO Unit
  | .directory => IO.FS.createDirAll (pathOf l)
  | .file bytes => do
    let fresh := pathOf l ++ ".part"
    IO.FS.writeBinFile fresh ⟨bytes.toArray⟩
    IO.FS.rename fresh (pathOf l)

/-- Brings to the disk what one tree has and another does not. -/
def bringNew (before after : FileTree) : IO Unit :=
  after.entries.entries.forM fun (l, e) =>
    if before.get? l = some e then pure () else bring l e

/-- A line of a file of the system, in lower case. -/
def systemLine (path : String) : IO String := do
  try
    let text ← IO.FS.readFile path
    pure (String.ofList ((text.toList.takeWhile (· ≠ '\n')).map Char.toLower))
  catch _ => pure "unknown"

/-- The day and the platform. -/
def environment : IO CommandLine.Environment := do
  let day ← Std.Time.PlainDate.now
  let system ← systemLine "/proc/sys/kernel/ostype"
  let machine ← systemLine "/proc/sys/kernel/arch"
  pure { today := toString day, platform := system ++ "-" ++ machine }

/-- An event as a line. -/
def eventLine (e : LogEvent) : String :=
  " ".intercalate (e.level.name :: e.message :: e.fields.map fun (k, v) => k ++ "=" ++ v)

end ReferenceDraws.Program

/-- Runs a command line. -/
def main (args : List String) : IO UInt32 := do
  let before ← ReferenceDraws.Program.snapshot args
  let (after, e) :=
    ReferenceDraws.CommandLine.run (← ReferenceDraws.Program.environment) before args
  ReferenceDraws.Program.bringNew before after
  e.shown.forM fun event => IO.eprintln (ReferenceDraws.Program.eventLine event)
  IO.print e.printed
  match e.error with
  | some error => IO.eprintln ("Error: " ++ error.message)
  | none => if e.code = 2 then IO.eprint ReferenceDraws.CommandLine.programGrammar.help
  pure e.code
