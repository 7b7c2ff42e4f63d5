import ReferenceDraws.Draws.DrawArray
import ReferenceDraws.Summary.Load

/-!
# The output of a sampler

What a completed run of the sampler hands over: a summary, the merged draws and the names of its
auxiliary variables. Each part is there or fails on its own.

* `SamplerOutput.ofParts`: an output that is held in memory;
* `SamplerFiles.output`: an output in files.
-/

namespace ReferenceDraws

/-- The output of a sampler. -/
structure SamplerOutput where
  /-- The statistics per parameter. -/
  summary : Except Failure SummaryTable
  /-- The draws per variable. -/
  draws : Except Failure DrawMatrix
  /-- The names of auxiliary variables. -/
  methodVariables : Except Failure (List String)

/-- An output in memory. -/
def SamplerOutput.ofParts (summary : SummaryTable) (draws : DrawMatrix)
    (methodVariables : List String) : SamplerOutput :=
  ⟨.ok summary, .ok draws, .ok methodVariables⟩

/-- The files of an output. -/
structure SamplerFiles where
  /-- The path of the draws, a JSON object. -/
  draws : String
  /-- The path of the summary, comma-separated. -/
  summary : String
  /-- The path of the names of auxiliary variables, a JSON array, if there is one. -/
  methodVariables : Option String := none
deriving DecidableEq

namespace SamplerFiles

/-- The bytes of an input file. -/
def readInput (t : FileTree) (path : String) : Except Failure (List UInt8) :=
  (t.read path).mapError fun fault =>
    ⟨.input, .of "pdbref_pipeline.read" fault.message [("path", path)]⟩

/-- The draws in a file. -/
def readDraws (t : FileTree) (path : String) : Except Failure DrawMatrix := do
  (DrawMatrix.ofBytes (← readInput t path)).mapError (Failure.addContextIf .input "path" path)

/-- The names of auxiliary variables in a file. -/
def readMethodVariables (t : FileTree) (path : String) : Except Failure (List String) := do
  let bytes ← readInput t path
  (Json.decodeBytes (Json.Decoder.list Json.Decoder.string) bytes).mapError fun fault =>
    ⟨.input, .of "pdbref_pipeline.method_variables_parse" fault.message [("path", path)]⟩

/-- The output in files. -/
def output (files : SamplerFiles) (t : FileTree) : SamplerOutput where
  summary := SummaryTable.load t files.summary
  draws := readDraws t files.draws
  methodVariables :=
    match files.methodVariables with
    | some path => readMethodVariables t path
    | none => .ok []

end SamplerFiles

end ReferenceDraws
