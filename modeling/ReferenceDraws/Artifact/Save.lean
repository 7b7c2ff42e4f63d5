import ReferenceDraws.Artifact.DrawsArchive
import ReferenceDraws.Artifact.InfoDocument

/-!
# Saving a reference

The two artifacts of a reference are written one after the other, the draws first. Each is
written atomically; if the second cannot be written, the first stays.
-/

namespace ReferenceDraws

/-- Where the artifacts of a reference were written. -/
structure SavedArtifacts where
  /-- The path of the draws archive. -/
  drawsPath : String
  /-- The path of the info document. -/
  infoPath : String
  /-- The SHA-256 digest of the draws archive, in hexadecimal. -/
  drawsSha256 : String
deriving DecidableEq

namespace SavedArtifacts

/-- Saved artifacts as a value. -/
def toJson (s : SavedArtifacts) : Json :=
  .object [("draws_path", .string s.drawsPath), ("info_path", .string s.infoPath),
    ("draws_sha256", .string s.drawsSha256)]

/-- Reads saved artifacts. -/
def decode : Json.Decoder SavedArtifacts :=
  ((Json.RecordDecoder.map SavedArtifacts.mk (.required "draws_path" Json.Decoder.path))
    |>.and (.required "info_path" Json.Decoder.path)
    |>.and (.required "draws_sha256" Json.Decoder.string)).read "SavedArtifacts"

/-- What is reported of written draws. -/
def drawsEvent (path digest : String) : LogEvent :=
  ⟨.info, "wrote draws archive", [("path", path), ("sha256", digest)]⟩

/-- What is reported of a written document. -/
def infoEvent (path : String) : LogEvent := ⟨.info, "wrote info document", [("path", path)]⟩

/-- The disk at each of the two writes. -/
structure Disks where
  /-- While the draws are written. -/
  draws : AtomicWrite.Disk := .sound
  /-- While the document is written. -/
  info : AtomicWrite.Disk := .sound

/-- Writes the draws and then the document into a directory. -/
def save (disks : Disks) (t : FileTree) (dir : String) (chains : List ChainDraws)
    (document : InfoDocument) : FileTree × Logged (Except AtomicWrite.Refusal SavedArtifacts) :=
  let bytes := DrawsArchive.encode (DrawsArchive.entryName document.name) chains
  let digest := Sha256.hex (Sha256.digest bytes)
  let drawsPath := DrawsArchive.path dir document.name
  let infoPath := InfoDocument.path dir document.name
  match AtomicWrite.run disks.draws t drawsPath bytes with
  | (t, .error r) => (t, .quiet (.error r))
  | (t, .ok ()) =>
    match InfoDocument.write disks.info t infoPath document with
    | (t, .error r) => (t, ⟨[drawsEvent drawsPath digest], .error r⟩)
    | (t, .ok ()) =>
      (t, ⟨[drawsEvent drawsPath digest, infoEvent infoPath], .ok ⟨drawsPath, infoPath, digest⟩⟩)

end SavedArtifacts

end ReferenceDraws
