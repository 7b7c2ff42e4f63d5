import ReferenceDraws.Draws.ChainLayout
import ReferenceDraws.ParameterName
import ReferenceDraws.Log

/-!
# Assembly of chains

The draws of requested parameters, taken out of the merged arrays and put together chain by
chain. Every chain receives the parameters in order of request. A parameter whose variable has no
draws is left out, or fails the assembly where missing variables are not allowed.

* `assemble`: the chains, the names left out, and an event for each parameter on the way.
-/

namespace ReferenceDraws

/-- What to do about a parameter whose variable has no draws. -/
inductive MissingPolicy where
  /-- Leave the parameter out of every chain. -/
  | omit
  /-- Fail. -/
  | fail
deriving DecidableEq, Inhabited

namespace MissingPolicy

/-- The names of the policies in documents. -/
def names : List (String × MissingPolicy) := [("omit", .omit), ("fail", .fail)]

/-- The name of a policy. -/
def name : MissingPolicy → String
  | .omit => "omit"
  | .fail => "fail"

end MissingPolicy

/-- The options of an assembly. -/
structure AssemblyOptions where
  /-- What to do about missing variables. -/
  missing : MissingPolicy := .omit
deriving DecidableEq, Inhabited

namespace AssemblyOptions

/-- Options as a value. -/
def toJson (o : AssemblyOptions) : Json := .object [("missing", .string o.missing.name)]

/-- Reads options. -/
def decode : Json.Decoder AssemblyOptions :=
  (Json.RecordDecoder.map AssemblyOptions.mk
    (.defaulted "missing" .omit (Json.Decoder.case MissingPolicy.names))).read "AssembleOptions"

end AssemblyOptions

/-- The chains of an assembly, and what was left out. -/
structure Assembly where
  /-- One entry per chain. -/
  chains : List ChainDraws
  /-- The requested names whose variable has no draws, in order of request. -/
  omitted : List String

namespace Assembly

/-- Why draws cannot be assembled. -/
inductive Fault where
  /-- A requested name is malformed. -/
  | malformed (name : ParameterName.Malformed)
  /-- The draws of a parameter do not have the shape asked for. -/
  | misshapen (parameter : String) (fault : ShapeFault)
  /-- A parameter's variable has no draws and may not be missing. -/
  | missing (parameter base : String)
  /-- There are more chains than can be held. -/
  | tooManyChains (chains : UInt64)
deriving DecidableEq

/-- The failure of an assembly. -/
def Fault.failure : Fault → Failure
  | .malformed name => name.failure
  | .misshapen parameter fault =>
    ⟨.shapeMismatch, fault.report.withContext "parameter" parameter⟩
  | .missing parameter base =>
    ⟨.missingVariable,
      (Report.of "pdbref_draws.missing_variable" "requested parameter has no draws"
        [("parameter", parameter), ("variable", base)]).withHint
        "omit the strict missing-variable policy to skip it"⟩
  | .tooManyChains chains =>
    ⟨.config,
      .of "pdbref_draws.chain_alloc"
        "memory allocation failed because the computed capacity exceeded the collection's maximum"
        [("chains", toString chains.toNat)]⟩

/-- The most chains that can be held: a chain takes seventy-two bytes before its first draw, and
memory is addressed by sixty-three bits. -/
def maxChains : Nat := (Nat.pow 2 63 - 1) / 72

/-! ## One parameter -/

/-- The draws of a parameter in `count` chains from `chain` on. -/
def slicesFrom (a : DrawArray) (chains drawsPerChain : UInt64) (index : Option UInt64) :
    Nat → Nat → Except ShapeFault (List Series)
  | 0, _ => .ok []
  | count + 1, chain => do
    let series ← ChainLayout.split a (UInt64.ofNat chain) chains drawsPerChain index
    let rest ← slicesFrom a chains drawsPerChain index count (chain + 1)
    pure (series :: rest)

/-- The draws of a parameter in every chain, first chain first. -/
def slices (a : DrawArray) (config : RunConfig) (index : Option UInt64) :
    Except ShapeFault (List Series) :=
  slicesFrom a config.chains config.drawsPerChain index config.chains.toNat 0

/-- What is reported of a parameter without draws. -/
def omittedEvent (parameter : String) : LogEvent :=
  ⟨.warn, "variable missing from draws; omitting", [("parameter", parameter)]⟩

/-- What is reported of a parameter that was taken. -/
def assembledEvent (parameter : String) (chains : UInt64) : LogEvent :=
  ⟨.debug, "assembled draws", [("parameter", parameter), ("chains", toString chains.toNat)]⟩

/-! ## All parameters -/

/-- Parameters with their draws per chain, and the names left out. -/
structure Collected where
  /-- The parameters taken, in order of request. -/
  taken : List (String × List Series)
  /-- The names left out, in order of request. -/
  omitted : List String

/-- Takes the requested parameters one after another and stops at the first fault. -/
def collect (matrix : DrawMatrix) (config : RunConfig) (missing : MissingPolicy) :
    List String → Logged (Except Fault Collected)
  | [] => .quiet (.ok ⟨[], []⟩)
  | parameter :: rest =>
    match ParameterName.resolve parameter with
    | .error name => .quiet (.error (.malformed name))
    | .ok name =>
      match matrix.get? name.base with
      | none =>
        match missing with
        | .fail => .quiet (.error (.missing parameter name.base))
        | .omit =>
          let others := collect matrix config missing rest
          .after (omittedEvent parameter)
            ⟨others.events, others.value.map fun c => ⟨c.taken, parameter :: c.omitted⟩⟩
      | some a =>
        match slices a config name.index with
        | .error fault => .quiet (.error (.misshapen parameter fault))
        | .ok series =>
          let others := collect matrix config missing rest
          .after (assembledEvent parameter config.chains)
            ⟨others.events, others.value.map fun c => ⟨(parameter, series) :: c.taken, c.omitted⟩⟩

/-- Adds a parameter to every chain. -/
def addParameter (chains : List ChainDraws) (parameter : String) (series : List Series) :
    List ChainDraws :=
  List.zipWith (fun chain s => chain.insert parameter s) chains series

/-- The chains that parameters make together. -/
def chainsOf (count : Nat) (taken : List (String × List Series)) : List ChainDraws :=
  taken.foldl (fun chains p => addParameter chains p.1 p.2) (List.replicate count .empty)

end Assembly

/-- Assembles the requested parameters chain by chain. -/
def assemble (parameters : List String) (matrix : DrawMatrix) (config : RunConfig)
    (options : AssemblyOptions) : Logged (Except Assembly.Fault Assembly) :=
  let collected := Assembly.collect matrix config options.missing parameters
  ⟨collected.events, do
    let c ← collected.value
    if Assembly.maxChains < config.chains.toNat then throw (.tooManyChains config.chains)
    pure ⟨Assembly.chainsOf config.chains.toNat c.taken, c.omitted⟩⟩

end ReferenceDraws
