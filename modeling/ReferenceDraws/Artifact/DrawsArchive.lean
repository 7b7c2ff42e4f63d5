import ReferenceDraws.Draws.Series
import ReferenceDraws.Failure
import ReferenceDraws.Files.AtomicWrite
import ReferenceDraws.Zip.Archive

/-!
# Draws archives

The draws of a reference: a zip archive with one entry, the chains as a JSON array.

* `DrawsArchive.encode`, `DrawsArchive.decode`: chains to bytes and back.
-/

namespace ReferenceDraws.DrawsArchive

/-- The name of the entry of a posterior. -/
def entryName (posterior : String) : String := posterior ++ ".json"

/-- The path of the archive of a posterior in a directory. -/
def path (dir posterior : String) : String := Path.join dir (posterior ++ ".json.zip")

/-- Chains as an archive, of whatever size; the sizes that it records are modulo `2 ^ 32`. -/
def encode (entry : String) (chains : List ChainDraws) : List UInt8 :=
  Archive.write entry (Text.encode (ChainDraws.listToJson chains).compact)

/-- Writes chains as an archive. -/
def write (disk : AtomicWrite.Disk) (t : FileTree) (path entry : String)
    (chains : List ChainDraws) : FileTree × Except AtomicWrite.Refusal Unit :=
  AtomicWrite.run disk t path (encode entry chains)

/-! ## Reading -/

/-- Why an archive cannot be read. -/
inductive Fault where
  /-- There is no such file. -/
  | missing (fault : FileTree.Fault)
  /-- The file is a directory. -/
  | unreadable
  /-- The file is no archive, or its first entry cannot be read. -/
  | archive (fault : Archive.Fault)
  /-- The entry does not hold chains. -/
  | content (fault : Json.Fault)
deriving DecidableEq

/-- The code of a fault. -/
def Fault.code : Fault → String
  | .missing _ => "pdbref_artifact.archive_open"
  | .unreadable => "pdbref_artifact.archive_parse"
  | .archive .directory => "pdbref_artifact.archive_parse"
  | .archive .empty => "pdbref_artifact.archive_empty"
  | .archive .entry => "pdbref_artifact.archive_entry"
  | .archive .data => "pdbref_artifact.archive_read"
  | .content _ => "pdbref_artifact.draws_parse"

/-- What a fault is called. -/
def Fault.message : Fault → String
  | .missing f => f.message
  | .unreadable => FileTree.Fault.isADirectory.message
  | .archive .directory => "not a readable zip archive"
  | .archive .empty => "archive has no entries"
  | .archive .entry => "the entry cannot be opened"
  | .archive .data => "the data of the entry is damaged"
  | .content f => f.message

/-- The failure of reading an archive. -/
def Fault.failure (path : String) (f : Fault) : Failure :=
  ⟨.input, .of f.code f.message [("path", path)]⟩

/-- The chains in an archive. -/
def decode (bytes : List UInt8) : Except Fault (List ChainDraws) := do
  let data ← (Archive.readFirst bytes).mapError .archive
  (Json.decodeBytes ChainDraws.decodeList data).mapError .content

/-- Reads the chains of an archive. -/
def read (t : FileTree) (path : String) : Except Fault (List ChainDraws) := do
  match ← (t.openPath path).mapError .missing with
  | none => throw .unreadable
  | some bytes => decode bytes

end ReferenceDraws.DrawsArchive
