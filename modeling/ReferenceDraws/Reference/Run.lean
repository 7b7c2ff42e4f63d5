import ReferenceDraws.Artifact.Save
import ReferenceDraws.Draws.Assembly
import ReferenceDraws.Reference.SamplerOutput

/-!
# Reference runs

From the output of a sampler to the two artifacts of a posterior.

* `ReferenceRun.generate`: the draws per chain and the diagnostics, with the events on the way;
* `ReferenceRun.save`: writes both artifacts.
-/

namespace ReferenceDraws

/-- The draws and diagnostics of a posterior, ready to be written. -/
structure ReferenceRun where
  /-- The posterior. -/
  name : String
  /-- How the sampler was run. -/
  config : RunConfig
  /-- The draws, chain by chain. -/
  chains : List ChainDraws
  /-- The diagnostics of every parameter of the summary. -/
  diagnostics : DiagnosticsRecord
  /-- The parameters that had no draws. -/
  omitted : List String

namespace ReferenceRun

/-- The verdicts on a run. -/
def checks (r : ReferenceRun) : QualityChecks := .evaluate r.diagnostics

/-- The document of a run. -/
def document (r : ReferenceRun) (provenance : Provenance) : InfoDocument :=
  .build r.name r.config r.diagnostics provenance

/-- What is reported before draws are assembled. -/
def startEvent (posterior : String) (parameters : List String) (matrix : DrawMatrix) : LogEvent :=
  ⟨.info, "assembling reference draws",
    [("posterior", posterior), ("parameters", toString parameters.length),
      ("variables", toString matrix.size)]⟩

/-- A part of the sampler's output, which is there without an event. -/
def part {α : Type} (p : Except Failure α) : Logged (Except Failure α) := .quiet p

/-- Assembles draws and collects diagnostics, for the parameters of a summary in its order. -/
def generateFrom (name : String) (summary : SummaryTable) (matrix : DrawMatrix)
    (methodVariables : Except Failure (List String)) (config : RunConfig)
    (options : AssemblyOptions) : Logged (Except Failure ReferenceRun) :=
  let parameters := summary.parameterNames
  let assembled := assemble parameters matrix config options
  .after (startEvent name parameters matrix) <|
    Logged.andThen ⟨assembled.events, assembled.value.mapError Assembly.Fault.failure⟩ fun a =>
      (part methodVariables).andThen fun auxiliary =>
        let record :=
          DiagnosticsRecord.aggregate parameters summary config.chains config.totalDraws auxiliary
        ⟨record.events, .ok ⟨name, config, a.chains, record.value, a.omitted⟩⟩

/-- Generates the reference of a posterior from the output of a sampler. The configuration is
checked first, then the summary and the draws are taken, and the auxiliary variables last. -/
def generate (name : String) (output : SamplerOutput) (config : RunConfig)
    (options : AssemblyOptions) : Logged (Except Failure ReferenceRun) :=
  (part (config.validate.mapError RunConfig.Fault.failure)).andThen fun _ =>
    (part output.summary).andThen fun summary =>
      (part output.draws).andThen fun matrix =>
        generateFrom name summary matrix output.methodVariables config options

/-- Writes the artifacts of a run into a directory. -/
def save (disks : SavedArtifacts.Disks) (t : FileTree) (dir : String) (provenance : Provenance)
    (r : ReferenceRun) : FileTree × Logged (Except AtomicWrite.Refusal SavedArtifacts) :=
  SavedArtifacts.save disks t dir r.chains (r.document provenance)

end ReferenceRun

end ReferenceDraws
