import ReferenceDraws.CommandLine.Grammar
import ReferenceDraws.Provenance

/-!
# Invocations

What the program can be asked to do: generate a reference, inspect one, and tell its version.

* `Invocation.ofArguments`: what a command line asks for.
-/

namespace ReferenceDraws.CommandLine

/-- What to generate a reference from, and where. -/
structure GenerateOptions where
  /-- The posterior. -/
  posterior : String
  /-- The path of the draws. -/
  draws : String
  /-- The path of the summary. -/
  summary : String
  /-- The path of the names of auxiliary variables. -/
  methodVariables : Option String := none
  /-- The path of the configuration. -/
  config : Option String := none
  /-- Replaces the chains of the configuration. -/
  chains : Option UInt64 := none
  /-- Replaces the seed of the configuration. -/
  seed : Option UInt64 := none
  /-- The directory of the artifacts. -/
  out : String := "."
  /-- Who adds the reference. -/
  addedBy : Option String := none
  /-- Whether a parameter without draws is a failure. -/
  strictMissing : Bool := false
deriving DecidableEq

/-- What to inspect. -/
structure InspectOptions where
  /-- The path of the info document. -/
  info : String
  /-- The path of the draws archive, to compare with the document. -/
  draws : Option String := none
deriving DecidableEq

/-- What the program does. -/
inductive Command where
  | generate (options : GenerateOptions)
  | inspect (options : InspectOptions)
  | version
deriving DecidableEq

/-- A command, and the events that are shown. -/
structure Invocation where
  /-- The least important level that is shown. -/
  threshold : LogLevel
  command : Command
deriving DecidableEq

/-! ## Grammars -/

/-- The option that every command takes. -/
def levelOption : Opt where
  name := "log-level"
  kind := some .level
  about := "Log verbosity level (trace, debug, info, warn, error)"
  fallback := some "info"

/-- The grammar of generation. -/
def generateGrammar : Grammar where
  command := "pdbref generate"
  about := "Reshape a completed sampler run into a draws archive and info document"
  positionals :=
    [⟨"posterior", .text, "posteriordb posterior name, e.g. \x60wells_data-wells_dist\x60"⟩]
  options :=
    [⟨"draws", some .path, "Draws JSON exported from the sampler (variable name to array)", true,
        none⟩,
      levelOption,
      ⟨"summary", some .path, "Summary CSV exported from the sampler", true, none⟩,
      ⟨"method-variables", some .path, "Optional JSON array of auxiliary sampler variable names",
        false, none⟩,
      ⟨"config", some .path, "YAML run configuration; posteriordb defaults when omitted", false,
        none⟩,
      ⟨"chains", some .word, "Override the number of chains", false, none⟩,
      ⟨"seed", some .word, "Override the recorded seed", false, none⟩,
      ⟨"out", some .path, "Output directory for the artifacts", false, some "."⟩,
      ⟨"added-by", some .text, "Value recorded under \x60added_by\x60", false, none⟩,
      ⟨"strict-missing", none, "Fail instead of omitting parameters whose variable has no draws",
        false, none⟩]

/-- The grammar of inspection. -/
def inspectGrammar : Grammar where
  command := "pdbref inspect"
  about := "Print the quality checks recorded in an info document"
  positionals := [⟨"info", .path, "Metadata document (\x60*.info.json\x60)"⟩]
  options :=
    [⟨"draws", some .path,
        "Matching draws archive; chain and draw counts are cross-checked when given", false, none⟩,
      levelOption]

/-- The grammar of the version. -/
def versionGrammar : Grammar where
  command := "pdbref version"
  about := "Print the tool version"
  options := [levelOption]

/-- The commands by name. -/
def grammars : List (String × Grammar) :=
  [("generate", generateGrammar), ("inspect", inspectGrammar), ("version", versionGrammar)]

/-- The command that prints help. -/
def helpCommand : String × String :=
  ("help", "Print this message or the help of the given subcommand(s)")

/-- What the command that prints help tells about itself. -/
def helpOnHelp : String :=
  helpCommand.2 ++ "\n\nUsage: pdbref " ++ helpCommand.1 ++ " [COMMAND]...\n" ++
    Grammar.sectionText "Arguments" [("[COMMAND]...", "Print help for the subcommand(s)")]

/-- The grammar of the program, up to the command. -/
def programGrammar : Grammar where
  command := "pdbref"
  about := "posteriordb reference draw generator"
  options := [levelOption]
  commands := grammars.map (fun (name, g) => (name, g.about)) ++ [helpCommand]

/-! ## Reading an invocation -/

namespace Arguments

/-- The value of an option. -/
def value? (a : Arguments) (name : String) : Option String := a.options.lookup name

/-- The number that an option has as its value. -/
def word? (a : Arguments) (name : String) : Option UInt64 := a.value? name >>= wordOfText?

/-- The level that is shown, if it is given. -/
def threshold? (a : Arguments) : Option LogLevel := a.value? levelOption.name >>= LogLevel.ofText?

end Arguments

/-- The options of a generation. -/
def GenerateOptions.ofArguments (a : Arguments) : GenerateOptions where
  posterior := a.positionals.headD ""
  draws := (a.value? "draws").getD ""
  summary := (a.value? "summary").getD ""
  methodVariables := a.value? "method-variables"
  config := a.value? "config"
  chains := a.word? "chains"
  seed := a.word? "seed"
  out := (a.value? "out").getD "."
  addedBy := a.value? "added-by"
  strictMissing := (a.value? "strict-missing").isSome

/-- The options of an inspection. -/
def InspectOptions.ofArguments (a : Arguments) : InspectOptions where
  info := a.positionals.headD ""
  draws := a.value? "draws"

/-- The command of a name with its arguments, and the level given among them. -/
def Command.ofArguments (name : String) (args : List String) :
    Except Refusal (Command × Option LogLevel) :=
  if name = "generate" then do
    let a ← generateGrammar.read args
    pure (.generate (.ofArguments a), a.threshold?)
  else if name = "inspect" then do
    let a ← inspectGrammar.read args
    pure (.inspect (.ofArguments a), a.threshold?)
  else if name = "version" then do
    let a ← versionGrammar.read args
    pure (.version, a.threshold?)
  else if name = helpCommand.1 then
    match args with
    | [] => .error (.help programGrammar.help)
    | [topic] =>
      match grammars.lookup topic with
      | some g => .error (.help g.help)
      | none => .error (if topic = helpCommand.1 then .help helpOnHelp else .usage)
    | _ => .error .usage
  else .error .usage

/-- What a command line asks for. A level given after the command counts more than one before it. -/
def Invocation.ofArguments (args : List String) : Except Refusal Invocation := do
  let scan ← programGrammar.scan args
  match scan.rest with
  | [] => throw .usage
  | name :: rest =>
    let (command, threshold) ← Command.ofArguments name rest
    let a ← scan.settled
    pure ⟨(threshold <|> a.threshold?).getD .info, command⟩

end ReferenceDraws.CommandLine
