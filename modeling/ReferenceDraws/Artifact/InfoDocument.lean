import ReferenceDraws.Diagnostics.QualityChecks
import ReferenceDraws.Files.AtomicWrite
import ReferenceDraws.Provenance
import ReferenceDraws.RunConfig.Basic

/-!
# Info documents

The document beside the draws of a reference: how the sampler was run, the diagnostics, the
verdicts of the quality checks and the provenance. The names of its members, their nesting and
their order are fixed.

* `InfoDocument.build`: the document of a run;
* `InfoDocument.text`, `InfoDocument.decode`: its text, and how it is read.
-/

namespace ReferenceDraws

/-- The sampler's arguments; `iter` counts warmup and all sampling iterations of a chain. -/
structure MethodArguments where
  chains : UInt64
  iter : UInt64
  warmup : UInt64
  thin : UInt64
  seed : UInt64
deriving DecidableEq

/-- How the draws were made. -/
structure Inference where
  method : String
  arguments : MethodArguments
deriving DecidableEq

/-- The diagnostics in a document. -/
structure DiagnosticsSection where
  /-- The parameters. -/
  names : List String
  ndraws : UInt64
  nchains : UInt64
  essBulk : List Double
  essTail : List Double
  rHat : List Double
  divergentTransitions : List UInt64
deriving DecidableEq

/-- The document of a reference. -/
structure InfoDocument where
  name : String
  inference : Inference
  diagnostics : DiagnosticsSection
  checksMade : QualityChecks
  comments : String
  addedBy : String
  addedDate : String
  versions : OrderedMap String String
deriving DecidableEq

namespace MethodArguments

/-- The arguments of a configuration. -/
def ofConfig (c : RunConfig) : MethodArguments := ⟨c.chains, c.iterTotal, c.warmup, c.thin, c.seed⟩

/-- Arguments as a value. -/
def toJson (a : MethodArguments) : Json :=
  .object [("chains", .ofUInt64 a.chains), ("iter", .ofUInt64 a.iter),
    ("warmup", .ofUInt64 a.warmup), ("thin", .ofUInt64 a.thin), ("seed", .ofUInt64 a.seed)]

/-- Reads arguments. -/
def decode : Json.Decoder MethodArguments :=
  ((Json.RecordDecoder.map MethodArguments.mk (.required "chains" Json.Decoder.size))
    |>.and (.required "iter" Json.Decoder.size)
    |>.and (.required "warmup" Json.Decoder.size)
    |>.and (.required "thin" Json.Decoder.size)
    |>.and (.required "seed" Json.Decoder.word)).read "MethodArguments"

end MethodArguments

namespace Inference

/-- The method of draws that a sampler made. -/
def samplingMethod : String := "stan_sampling"

/-- A method with its arguments as a value. -/
def toJson (i : Inference) : Json :=
  .object [("method", .string i.method), ("method_arguments", i.arguments.toJson)]

/-- Reads a method with its arguments. -/
def decode : Json.Decoder Inference :=
  ((Json.RecordDecoder.map Inference.mk (.required "method" Json.Decoder.string))
    |>.and (.required "method_arguments" MethodArguments.decode)).read "Inference"

end Inference

namespace DiagnosticsSection

/-- The section of a record. -/
def ofRecord (r : DiagnosticsRecord) : DiagnosticsSection :=
  ⟨r.parameterNames, r.ndraws, r.nchains, r.essBulk, r.essTail, r.rHat, r.divergentTransitions⟩

/-- A section as a value. -/
def toJson (s : DiagnosticsSection) : Json :=
  .object [("diagnostic_information", .object [("names", .ofStrings s.names)]),
    ("ndraws", .ofUInt64 s.ndraws), ("nchains", .ofUInt64 s.nchains),
    ("effective_sample_size_bulk", .ofDoubles s.essBulk),
    ("effective_sample_size_tail", .ofDoubles s.essTail), ("r_hat", .ofDoubles s.rHat),
    ("divergent_transitions", .array (s.divergentTransitions.map .ofUInt64))]

/-- Reads the parameters, which have a record of their own. -/
def decodeNames : Json.Decoder (List String) :=
  (Json.RecordDecoder.required "names" (Json.Decoder.list Json.Decoder.string)).read
    "DiagnosticInformation"

/-- Reads a section. -/
def decode : Json.Decoder DiagnosticsSection :=
  ((Json.RecordDecoder.map DiagnosticsSection.mk (.required "diagnostic_information" decodeNames))
    |>.and (.required "ndraws" Json.Decoder.size)
    |>.and (.required "nchains" Json.Decoder.size)
    |>.and (.required "effective_sample_size_bulk" (Json.Decoder.list Json.Decoder.double))
    |>.and (.required "effective_sample_size_tail" (Json.Decoder.list Json.Decoder.double))
    |>.and (.required "r_hat" (Json.Decoder.list Json.Decoder.double))
    |>.and (.required "divergent_transitions" (Json.Decoder.list Json.Decoder.word))).read
    "DiagnosticsSection"

end DiagnosticsSection

namespace InfoDocument

/-- The path of the document of a posterior in a directory. -/
def path (dir posterior : String) : String := Path.join dir (posterior ++ ".info.json")

/-- The document of a run; the checks are evaluated on its diagnostics. -/
def build (name : String) (config : RunConfig) (diagnostics : DiagnosticsRecord)
    (provenance : Provenance) : InfoDocument where
  name
  inference := ⟨Inference.samplingMethod, .ofConfig config⟩
  diagnostics := .ofRecord diagnostics
  checksMade := .evaluate diagnostics
  comments := provenance.comments
  addedBy := provenance.addedBy
  addedDate := provenance.addedDate
  versions := provenance.versions

/-- A document as a value. -/
def toJson (d : InfoDocument) : Json :=
  .object [("name", .string d.name), ("inference", d.inference.toJson),
    ("diagnostics", d.diagnostics.toJson), ("checks_made", d.checksMade.toJson),
    ("comments", .string d.comments), ("added_by", .string d.addedBy),
    ("added_date", .string d.addedDate), ("versions", .ofOrderedMap .string d.versions)]

/-- The text of a document. -/
def text (d : InfoDocument) : String := d.toJson.pretty

/-- Reads a document. -/
def decode : Json.Decoder InfoDocument :=
  ((Json.RecordDecoder.map InfoDocument.mk (.required "name" Json.Decoder.string))
    |>.and (.required "inference" Inference.decode)
    |>.and (.required "diagnostics" DiagnosticsSection.decode)
    |>.and (.required "checks_made" QualityChecks.decode)
    |>.and (.required "comments" Json.Decoder.string)
    |>.and (.required "added_by" Json.Decoder.string)
    |>.and (.required "added_date" Json.Decoder.string)
    |>.and (.required "versions" (Json.Decoder.orderedMap Json.Decoder.string))).read
    "InfoDocument"

/-- Writes a document. -/
def write (disk : AtomicWrite.Disk) (t : FileTree) (path : String) (d : InfoDocument) :
    FileTree × Except AtomicWrite.Refusal Unit :=
  AtomicWrite.run disk t path (Text.encode d.text)

/-- Why a document cannot be loaded. -/
inductive Fault where
  /-- The file cannot be read. -/
  | unreadable (fault : FileTree.Fault)
  /-- The file is not Unicode text. -/
  | notText
  /-- The text is no document. -/
  | content (fault : Json.Fault)
deriving DecidableEq

/-- The failure of loading a document. -/
def Fault.failure (path : String) : Fault → Failure
  | .unreadable f => ⟨.input, .of "pdbref_artifact.info_read" f.message [("path", path)]⟩
  | .notText =>
    ⟨.input, .of "pdbref_artifact.info_read" "the file is not valid text" [("path", path)]⟩
  | .content f => ⟨.input, .of "pdbref_artifact.info_parse" f.message [("path", path)]⟩

/-- Loads a document. -/
def load (t : FileTree) (path : String) : Except Fault InfoDocument := do
  let bytes ← (t.read path).mapError .unreadable
  let text ← (Text.decode? bytes).elim (.error .notText) .ok
  (Json.decodeString decode text).mapError .content

end InfoDocument

end ReferenceDraws
