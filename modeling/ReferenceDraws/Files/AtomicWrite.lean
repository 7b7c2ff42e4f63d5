import ReferenceDraws.Files.Tree
import ReferenceDraws.Failure

/-!
# Atomic writes

A file is written beside its place under a fresh name and moved there once it is complete, so
that its place only ever holds the contents before or after. A write goes through steps, each
of which the file system may refuse; whatever step fails, nothing but new directories stays.

* `AtomicWrite.run`: a write, for a disk that refuses some steps of its own accord.
-/

namespace ReferenceDraws.AtomicWrite

/-- The steps of a write. -/
inductive Step where
  /-- Makes the directory. -/
  | makeDirectory
  /-- Makes the file under its fresh name. -/
  | create
  /-- Fills it. -/
  | fill
  /-- Sees it safely onto the disk. -/
  | sync
  /-- Moves it to its place. -/
  | move
deriving DecidableEq

/-- The code of a failure at a step. -/
def Step.code : Step → String
  | .makeDirectory => "pdbref_artifact.mkdir"
  | .create => "pdbref_artifact.tempfile"
  | .fill => "pdbref_artifact.write"
  | .sync => "pdbref_artifact.sync"
  | .move => "pdbref_artifact.persist"

/-- The steps that a disk refuses although the file tree allows them. -/
abbrev Disk := Step → Bool

/-- A disk that refuses nothing. -/
def Disk.sound : Disk := fun _ => false

/-- A step that was refused. -/
structure Refusal where
  /-- The step. -/
  step : Step
  /-- The path that the step was about. -/
  path : String
  /-- The reason. -/
  reason : FileTree.Fault
deriving DecidableEq

/-- The failure of a refused write. -/
def Refusal.failure (r : Refusal) : Failure :=
  ⟨.artifactWrite, .of r.step.code r.reason.message [("path", r.path)]⟩

/-- The longest last name in a tree. -/
def longestName (t : FileTree) : Nat :=
  t.entries.keys.foldl (fun n l => max n ((l.getLast?.getD "").length)) 0

/-- A name that no entry of a tree has: it is longer than all of them. -/
def freshName (t : FileTree) : String :=
  String.ofList ('.' :: 't' :: 'm' :: 'p' :: List.replicate (longestName t) 'x')

/-- The directory that a path leads to. -/
def directoryAt (t : FileTree) (path : String) : Except FileTree.Fault Location := do
  match ← t.locate path with
  | .directory l => pure l
  | .name dir name _ =>
    let l := dir ++ [name]
    if t.isDirectoryAt l then pure l else throw .notADirectory

/-- The location of a new file in a directory. -/
def freshIn (t : FileTree) (dir : String) : Except FileTree.Fault Location := do
  let l ← directoryAt t dir
  if t.guarded.contains l then throw .denied
  else pure (l ++ [freshName t])

/-- Writes a file atomically on a disk. A disk that refuses the directory makes none of those above
it either. -/
def run (disk : Disk) (t : FileTree) (path : String) (bytes : List UInt8) :
    FileTree × Except Refusal Unit :=
  let dir := Path.directoryOf path
  if disk .makeDirectory then (t, .error ⟨.makeDirectory, dir, .denied⟩)
  else
    match t.makeDirectories dir with
    | (t, .error f) => (t, .error ⟨.makeDirectory, dir, f⟩)
    | (t, .ok ()) =>
      match freshIn t dir with
      | .error f => (t, .error ⟨.create, dir, f⟩)
      | .ok fresh =>
        if disk .create then (t, .error ⟨.create, dir, .denied⟩)
        else
          let started := t.put fresh (.file [])
          if disk .fill then (started.drop fresh, .error ⟨.fill, path, .denied⟩)
          else
            let filled := started.put fresh (.file bytes)
            if disk .sync then (filled.drop fresh, .error ⟨.sync, path, .denied⟩)
            else
              match filled.fileTarget path with
              | .error f => (filled.drop fresh, .error ⟨.move, path, f⟩)
              | .ok l =>
                if disk .move then (filled.drop fresh, .error ⟨.move, path, .denied⟩)
                else ((filled.drop fresh).put l (.file bytes), .ok ())

end ReferenceDraws.AtomicWrite
