import ReferenceDraws.CommandLine.Invocation
import ReferenceDraws.Reference.Run
import ReferenceDraws.RunConfig.Document

/-!
# Running the program

A run takes a file system to another one, and has an outcome: what is printed, the events that are
shown, and the error it ends with, if any.

* `run`: what a command line does.
-/

namespace ReferenceDraws.CommandLine

/-- What a run finds around it besides files. -/
structure Environment where
  /-- The date of the day, `YYYY-MM-DD`. -/
  today : String
  /-- The name of the platform. -/
  platform : String
  /-- The disk while artifacts are written. -/
  disks : SavedArtifacts.Disks := {}

/-- What a run ends with when it does not succeed. -/
inductive RunError where
  /-- An operation failed. -/
  | failure (f : Failure)
  /-- The draws archive has another number of chains than the document. -/
  | chainCount (archive : Nat) (document : UInt64)
  /-- Some quality check failed. -/
  | checksFailed
deriving DecidableEq

/-- What an error is called. -/
def RunError.message : RunError → String
  | .failure f => f.display
  | .chainCount archive document =>
    "archive holds " ++ toString archive ++ " chains but info document records " ++
      toString document.toNat
  | .checksFailed => "one or more quality checks failed"

/-- The outcome of a command. -/
structure Outcome where
  /-- The lines that are printed. -/
  lines : List String := []
  /-- All events. -/
  events : List LogEvent := []
  /-- The error, if there is one. -/
  error : Option RunError := none

/-! ## Lines -/

/-- A truth value as it is printed. -/
def verdictText (b : Bool) : String := if b then "True" else "False"

/-- The lines on quality checks: the verdict, and the checks that failed. -/
def checkLines (c : QualityChecks) : List String :=
  ("  All quality checks passed: " ++ verdictText c.allPassed) ::
    if c.allPassed then [] else "  Failed checks:" :: c.failed.map ("    - " ++ ·)

/-- A line of a number. -/
def countLine (title : String) (n : Nat) : String := "  " ++ title ++ ": " ++ toString n

/-- The lines on the extent of a reference. -/
def extentLines (parameters : Nat) (ndraws nchains : UInt64) : List String :=
  [countLine "Parameters" parameters, countLine "Total draws" ndraws.toNat,
    countLine "Chains" nchains.toNat]

/-! ## Generation -/

/-- The configuration of a generation: that of the file or the default one, with the replaced
values. It has to be valid before and after. -/
def loadConfig (t : FileTree) (o : GenerateOptions) : Except Failure RunConfig := do
  let c ←
    match o.config with
    | some path => RunConfig.load t path
    | none => pure {}
  let c := { c with chains := o.chains.getD c.chains, seed := o.seed.getD c.seed }
  c.validate.mapError RunConfig.Fault.failure
  pure c

/-- The files of a generation. -/
def GenerateOptions.files (o : GenerateOptions) : SamplerFiles :=
  ⟨o.draws, o.summary, o.methodVariables⟩

/-- How the draws of a generation are assembled. -/
def GenerateOptions.assembly (o : GenerateOptions) : AssemblyOptions :=
  ⟨if o.strictMissing then .fail else .omit⟩

/-- The provenance of a generated reference. -/
def GenerateOptions.provenance (o : GenerateOptions) (env : Environment) : Provenance :=
  let p := Provenance.current env.today env.platform
  match o.addedBy with
  | some name => p.withAddedBy name
  | none => p

/-- What is reported when the sampler's output broke the layout that is assumed of it. -/
def violationEvents (f : Failure) : List LogEvent :=
  if f.isContractViolation then
    [⟨.error, "sampler output does not match the expected layout", [("code", f.report.code)]⟩]
  else []

/-- What is printed of a saved reference. -/
def savedLines (r : ReferenceRun) (saved : SavedArtifacts) : List String :=
  ["", "Generated files:", "  Draws: " ++ saved.drawsPath, "  Info:  " ++ saved.infoPath, "",
    "Summary:"] ++
  extentLines r.diagnostics.parameterNames.length r.diagnostics.ndraws r.diagnostics.nchains ++
  (if r.omitted.isEmpty then []
    else ["  Omitted (no draws): " ++ ", ".intercalate r.omitted]) ++
  checkLines r.checks

/-- Generates a reference and saves it. -/
def generate (env : Environment) (t : FileTree) (o : GenerateOptions) : FileTree × Outcome :=
  match loadConfig t o with
  | .error f => (t, { error := some (.failure f) })
  | .ok config =>
    let generated := ReferenceRun.generate o.posterior (o.files.output t) config o.assembly
    match generated.value with
    | .error f =>
      (t, { events := generated.events ++ violationEvents f, error := some (.failure f) })
    | .ok r =>
      let (t, saved) := r.save env.disks t o.out (o.provenance env)
      let events := generated.events ++ saved.events
      match saved.value with
      | .error refusal => (t, { events, error := some (.failure refusal.failure) })
      | .ok files => (t, { lines := savedLines r files, events })

/-! ## Inspection -/

/-- The lines on an archive beside a document, or why the two do not fit. -/
def compareArchive (t : FileTree) (d : InfoDocument) (path : String) :
    Except RunError (List String) :=
  match DrawsArchive.read t path with
  | .error fault => .error (.failure (fault.failure path))
  | .ok chains =>
    if chains.length = d.diagnostics.nchains.toNat then
      .ok [countLine "Archive chains" chains.length]
    else .error (.chainCount chains.length d.diagnostics.nchains)

/-- Inspects a document, and the archive beside it if there is one. -/
def inspect (t : FileTree) (o : InspectOptions) : Outcome :=
  match InfoDocument.load t o.info with
  | .error fault => { error := some (.failure (fault.failure o.info)) }
  | .ok d =>
    let head := d.name ::
      extentLines d.diagnostics.names.length d.diagnostics.ndraws d.diagnostics.nchains
    match o.draws.elim (.ok []) (compareArchive t d) with
    | .error e => { lines := head, error := some e }
    | .ok archive =>
      { lines := head ++ archive ++ checkLines d.checksMade
        error := if d.checksMade.allPassed then none else some .checksFailed }

/-! ## All commands -/

/-- Runs a command. -/
def runCommand (env : Environment) (t : FileTree) : Command → FileTree × Outcome
  | .generate o => generate env t o
  | .inspect o => (t, inspect t o)
  | .version => (t, { lines := [Provenance.programVersion] })

/-- The paths that a command reads or writes. -/
def Command.paths : Command → List String
  | .generate o =>
    o.config.toList ++ [o.summary, o.draws] ++ o.methodVariables.toList ++
      [DrawsArchive.path o.out o.posterior, InfoDocument.path o.out o.posterior]
  | .inspect o => o.info :: o.draws.toList
  | .version => []

/-- How a run ends. -/
structure Exit where
  /-- Zero for success, one for an error, two for a command line that is wrong. -/
  code : UInt32
  /-- What was printed. -/
  printed : String := ""
  /-- The events that were shown. -/
  shown : List LogEvent := []
  /-- The error. -/
  error : Option RunError := none

/-- How a command with an outcome ends, where events up to a level are shown. -/
def Outcome.exit (o : Outcome) (threshold : LogLevel) : Exit where
  code := if o.error.isSome then 1 else 0
  printed := String.join (o.lines.map (· ++ "\n"))
  shown := o.events.filter (·.shownAt threshold)
  error := o.error

/-- What a command line does. -/
def run (env : Environment) (t : FileTree) (args : List String) : FileTree × Exit :=
  match Invocation.ofArguments args with
  | .error .usage => (t, { code := 2 })
  | .error (.help text) => (t, { code := 0, printed := text })
  | .ok i =>
    let (t, outcome) := runCommand env t i.command
    (t, outcome.exit i.threshold)

end ReferenceDraws.CommandLine
