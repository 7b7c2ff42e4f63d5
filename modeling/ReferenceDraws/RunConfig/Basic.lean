import ReferenceDraws.Failure

/-!
# Run configuration

How the sampler was run: chains, draws kept per chain, warmup, thinning and seed, each a natural
number of sixty-four bits. A valid configuration has positive counts, and neither its draws nor
its iterations exceed sixty-four bits; totals of other configurations saturate.

* `RunConfig.validate`: the first condition that a configuration violates.
-/

namespace ReferenceDraws

/-- The greatest natural number of sixty-four bits. -/
def maxWord : Nat := UInt64.size - 1

/-- A natural number as a word, the greatest word standing for all that exceed it. -/
def saturate (n : Nat) : UInt64 := UInt64.ofNat (min n maxWord)

/-- The parameters of a sampler run. -/
structure RunConfig where
  /-- Independent chains. -/
  chains : UInt64 := 10
  /-- Draws kept per chain, after thinning. -/
  drawsPerChain : UInt64 := 1000
  /-- Warmup iterations per chain. -/
  warmup : UInt64 := 10000
  /-- Of so many sampling iterations one is kept. -/
  thin : UInt64 := 10
  /-- The seed of the sampler. -/
  seed : UInt64 := 4711
deriving DecidableEq, Inhabited

/-- Why a configuration is invalid. -/
inductive RunConfig.Fault where
  | noChains
  | noDraws
  | noThinning
  /-- The draws of all chains exceed a word. -/
  | drawOverflow
  /-- The iterations of a chain exceed a word. -/
  | iterationOverflow
deriving DecidableEq

namespace RunConfig

namespace Fault

/-- The field at fault. -/
def field : Fault → String
  | .noChains => "chains"
  | .noDraws => "draws_per_chain"
  | .noThinning => "thin"
  | .drawOverflow => "chains"
  | .iterationOverflow => "thin"

/-- What is wrong with it. -/
def message : Fault → String
  | .noChains => "chains must be positive"
  | .noDraws => "draws_per_chain must be positive"
  | .noThinning => "thin must be positive"
  | .drawOverflow => "chains * draws_per_chain overflows the draw count"
  | .iterationOverflow => "draws_per_chain * thin + warmup overflows the iteration count"

/-- The failure of an invalid configuration. -/
def failure (f : Fault) : Failure :=
  ⟨.config, .of "pdbref_core.config_invalid" f.message [("field", f.field)]⟩

end Fault

/-! ## Totals -/

/-- The draws of all chains. -/
def totalDraws (c : RunConfig) : UInt64 := saturate (c.chains.toNat * c.drawsPerChain.toNat)

/-- The sampling iterations of a chain, before thinning. -/
def iterSampling (c : RunConfig) : UInt64 := saturate (c.drawsPerChain.toNat * c.thin.toNat)

/-- The iterations of a chain, with warmup. -/
def iterTotal (c : RunConfig) : UInt64 := saturate (c.iterSampling.toNat + c.warmup.toNat)

/-! ## Validity -/

/-- Checks the conditions in their order and names the first that is violated. -/
def validate (c : RunConfig) : Except Fault Unit :=
  if c.chains = 0 then .error .noChains
  else if c.drawsPerChain = 0 then .error .noDraws
  else if c.thin = 0 then .error .noThinning
  else if maxWord < c.chains.toNat * c.drawsPerChain.toNat then .error .drawOverflow
  else if maxWord < c.drawsPerChain.toNat * c.thin.toNat + c.warmup.toNat then
    .error .iterationOverflow
  else .ok ()

/-- A valid configuration from the sampler's own arguments, which count iterations before
thinning. -/
def ofSampling (chains iterSampling iterWarmup thin seed : UInt64) : Except Fault RunConfig := do
  if thin = 0 then throw .noThinning
  let c : RunConfig := ⟨chains, iterSampling / thin, iterWarmup, thin, seed⟩
  c.validate
  pure c

/-! ## JSON -/

/-- A configuration as a value. -/
def toJson (c : RunConfig) : Json :=
  .object [("chains", .ofUInt64 c.chains), ("draws_per_chain", .ofUInt64 c.drawsPerChain),
    ("warmup", .ofUInt64 c.warmup), ("thin", .ofUInt64 c.thin), ("seed", .ofUInt64 c.seed)]

/-- The name that messages use for a configuration. -/
def recordName : String := "RunConfig"

/-- How a configuration is read; every field has a default. -/
def record : Json.RecordDecoder RunConfig :=
  (Json.RecordDecoder.map RunConfig.mk (.defaulted "chains" 10 Json.Decoder.size))
    |>.and (.defaulted "draws_per_chain" 1000 Json.Decoder.size)
    |>.and (.defaulted "warmup" 10000 Json.Decoder.size)
    |>.and (.defaulted "thin" 10 Json.Decoder.size)
    |>.and (.defaulted "seed" 4711 Json.Decoder.word)

/-- Reads a configuration, valid or not. -/
def decode : Json.Decoder RunConfig := record.read recordName

end RunConfig

end ReferenceDraws
