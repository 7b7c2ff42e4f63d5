import Mathlib.Algebra.Ring.Nat
import ReferenceDraws.CommandLine.Run
import ReferenceDraws.Proofs.Draws.Series
import ReferenceDraws.Proofs.Reference.Run

/-!
# The numbers in a document

A document records how many chains and draws a run has, how long the sampler
ran, and a statistic of each kind for every parameter.  The counts are words
that saturate, and they reach the document on two ways: the arguments and the
totals come from the configuration, and the chains from the merged draws.

* Chains.  Every chain has the parameters of the others, with as many draws
  each as the configuration keeps (`exists_get?_of_mem_chains`), so that the
  draws of a parameter add up (`drawsOf_of_generate`).
* The document.  `InfoDocument.NumbersFit` says how the numbers of a document
  fit a configuration and chains, over the integers.  `documents_fit_runs`
  says that they do for every generated reference, and that every
  configuration that is loaded is valid.
-/

namespace ReferenceDraws

/-! ## Chains -/

namespace ReferenceRun

variable {name : String} {output : SamplerOutput} {config : RunConfig}
  {options : AssemblyOptions} {r : ReferenceRun}

/-- A parameter of one chain has its draws in every chain. -/
theorem exists_get?_of_mem_chains (h : (generate name output config options).value = .ok r)
    {p : String} (hp : ∃ chain ∈ r.chains, p ∈ chain.keys) {chain : ChainDraws}
    (hchain : chain ∈ r.chains) :
    ∃ s : Series, chain.get? p = some s ∧ s.size = config.drawsPerChain.toNat := by
  obtain ⟨summary, matrix, auxiliary, a, -, -, -, -, hassemble, rfl⟩ := exists_of_generate h
  have hnodup : summary.parameterNames.Nodup := summary.keys_nodup.sublist List.filter_sublist
  obtain ⟨other, hother, hp⟩ := hp
  rw [Assembly.keys_of_mem_chains hnodup hassemble hother,
    ← Assembly.keys_of_mem_chains hnodup hassemble hchain] at hp
  obtain ⟨s, hs⟩ := OrderedMap.exists_get?_of_mem_keys hp
  obtain ⟨array, index, start, hblock⟩ :=
    Assembly.isBlock_of_mem_entries hassemble hchain (OrderedMap.mem_entries_of_get? hs)
  exact ⟨s, hs, Series.size_of_isBlock hblock⟩

/-- The draws of a parameter are those of all chains. -/
theorem drawsOf_of_generate (h : (generate name output config options).value = .ok r)
    {p : String} (hp : ∃ chain ∈ r.chains, p ∈ chain.keys) :
    ChainDraws.drawsOf r.chains p = r.chains.length * config.drawsPerChain.toNat := by
  have hsizes : r.chains.map (fun chain => ((chain.get? p).map Series.size).getD 0) =
      List.replicate r.chains.length config.drawsPerChain.toNat := by
    rw [List.map_eq_replicate_iff]
    intro chain hchain
    obtain ⟨s, hs, hsize⟩ := exists_get?_of_mem_chains h hp hchain
    rw [hs, Option.map_some, Option.getD_some, hsize]
  rw [ChainDraws.drawsOf, hsizes, List.sum_replicate_nat]

end ReferenceRun

/-! ## The document -/

/-- The record that a section was made of. -/
def DiagnosticsSection.record (s : DiagnosticsSection) : DiagnosticsRecord :=
  ⟨s.names, s.ndraws, s.nchains, s.essBulk, s.essTail, s.rHat, s.divergentTransitions⟩

/-- How the numbers of a document fit a configuration and the chains of a run.
No number is cut off at the end of a word. -/
structure InfoDocument.NumbersFit (d : InfoDocument) (config : RunConfig)
    (chains : List ChainDraws) : Prop where
  configured : config.chains.toNat = chains.length
  chainArgument : d.inference.arguments.chains.toNat = chains.length
  nchains : d.diagnostics.nchains.toNat = chains.length
  iter : d.inference.arguments.iter.toNat =
    config.drawsPerChain.toNat * config.thin.toNat + config.warmup.toNat
  ndraws : d.diagnostics.ndraws.toNat = config.chains.toNat * config.drawsPerChain.toNat
  /-- The draws that were kept and those that were thinned out are the
  iterations after warmup. -/
  thinned : (d.diagnostics.ndraws.toNat : Int) * d.inference.arguments.thin.toNat =
    d.diagnostics.nchains.toNat *
      ((d.inference.arguments.iter.toNat : Int) - d.inference.arguments.warmup.toNat)
  /-- Every parameter has all draws. -/
  draws : ∀ p, (∃ chain ∈ chains, p ∈ chain.keys) →
    ChainDraws.drawsOf chains p = d.diagnostics.ndraws.toNat
  sizes : d.diagnostics.essBulk.length = d.diagnostics.names.length ∧
    d.diagnostics.essTail.length = d.diagnostics.names.length ∧
    d.diagnostics.rHat.length = d.diagnostics.names.length
  divergent : d.diagnostics.divergentTransitions = List.replicate d.diagnostics.nchains.toNat 0
  checks : d.checksMade = .evaluate d.diagnostics.record

namespace ReferenceRun

/-- The document of a generated reference has the numbers of its run. -/
theorem numbersFit_of_generate {name : String} {output : SamplerOutput} {config : RunConfig}
    {options : AssemblyOptions} {r : ReferenceRun}
    (h : (generate name output config options).value = .ok r) (provenance : Provenance) :
    (r.document provenance).NumbersFit config r.chains := by
  have hlength := length_chains_of_generate h
  have hdraws : ∀ p, (∃ chain ∈ r.chains, p ∈ chain.keys) →
      ChainDraws.drawsOf r.chains p = r.chains.length * config.drawsPerChain.toNat :=
    fun p hp => drawsOf_of_generate h hp
  obtain ⟨summary, matrix, auxiliary, a, hvalid, -, -, -, -, rfl⟩ := exists_of_generate h
  have hlength : a.chains.length = config.chains.toNat := hlength
  have hndraws := RunConfig.toNat_totalDraws_of_validate hvalid
  have hiter := RunConfig.toNat_iterTotal_of_validate hvalid
  constructor
  case configured => exact hlength.symm
  case chainArgument => exact hlength.symm
  case nchains => exact hlength.symm
  case iter => exact hiter
  case ndraws => exact hndraws
  case thinned =>
    show (config.totalDraws.toNat : Int) * config.thin.toNat =
      config.chains.toNat * ((config.iterTotal.toNat : Int) - config.warmup.toNat)
    rw [hndraws, hiter, Int.natCast_add, Int.add_sub_cancel, Int.natCast_mul, Int.natCast_mul,
      Int.mul_assoc]
  case draws =>
    intro p hp
    show ChainDraws.drawsOf a.chains p = config.totalDraws.toNat
    rw [hndraws, ← hlength]
    exact hdraws p hp
  case sizes =>
    simp only [document, InfoDocument.build, DiagnosticsSection.ofRecord,
      DiagnosticsRecord.aggregate, List.length_map, and_self]
  case divergent => rfl
  case checks => rfl

end ReferenceRun

/-! ## Configurations that are loaded -/

namespace CommandLine

/-- What a generation loads is a valid configuration. -/
theorem validate_of_loadConfig {t : FileTree} {o : GenerateOptions} {config : RunConfig}
    (h : loadConfig t o = .ok config) : config.validate = .ok () := by
  have hlast : ∀ c : RunConfig, (do
      c.validate.mapError RunConfig.Fault.failure
      pure c) = .ok config → config.validate = .ok () := by
    intro c hc
    obtain ⟨u, hvalid, hc⟩ := bind_eq_ok_iff.1 hc
    cases hc
    exact mapError_eq_ok_iff.1 hvalid
  unfold loadConfig at h
  split at h
  · obtain ⟨c, -, h⟩ := bind_eq_ok_iff.1 h
    exact hlast _ h
  · exact hlast _ h

/-- Every configuration that a generation loads is valid, and every reference
that is generated, from whatever output and configuration, has a document
whose numbers are exact and fit its chains. -/
theorem documents_fit_runs :
    (∀ t o config, loadConfig t o = .ok config → config.validate = .ok ()) ∧
      ∀ name output config options r provenance,
        (ReferenceRun.generate name output config options).value = .ok r →
        (r.document provenance).NumbersFit config r.chains :=
  ⟨fun _ _ _ hload => validate_of_loadConfig hload,
    fun _ _ _ _ _ provenance hr => ReferenceRun.numbersFit_of_generate hr provenance⟩

/-- A configuration file with as much warmup as fits. -/
def longTree : FileTree where
  entries := .ofList [(["run.yaml"], .file (Text.encode
    "draws_per_chain: 2\nthin: 5\nwarmup: 18446744073709551605\n"))]
  workDir := []

/-- Generates `toy` with that file in two chains. -/
def longOptions : GenerateOptions where
  posterior := "toy"
  draws := "draws.json"
  summary := "summary.csv"
  config := some "run.yaml"
  chains := some 2

/-- The configuration that is loaded. -/
def longConfig : RunConfig :=
  { chains := 2, drawsPerChain := 2, thin := 5, warmup := 18446744073709551605 }

/-- Draws of one of two parameters. -/
def longOutput : SamplerOutput :=
  .ofParts (.ofList [("theta", {}), ("sigma", {})])
    (.ofList [("theta", .scalar [⟨1⟩, ⟨2⟩, ⟨3⟩, ⟨4⟩])]) []

/-- The longest chains have exact numbers. -/
theorem documents_fit_runs_long :
    loadConfig longTree longOptions = .ok longConfig ∧ longConfig.validate = .ok () ∧
      ∃ r, (ReferenceRun.generate "toy" longOutput longConfig {}).value = .ok r ∧
        (r.document default).NumbersFit longConfig r.chains ∧
        (r.document default).inference.arguments.iter.toNat = 2 ^ 64 - 1 ∧
        ChainDraws.drawsOf r.chains "theta" = 4 := by
  have hload : loadConfig longTree longOptions = .ok longConfig :=
    toOption_eq_some_iff.1 (by decide +kernel)
  obtain ⟨r, hr⟩ : ∃ r, (ReferenceRun.generate "toy" longOutput longConfig {}).value = .ok r :=
    ⟨_, rfl⟩
  have hfit := documents_fit_runs.2 "toy" longOutput longConfig {} r default hr
  refine ⟨hload, documents_fit_runs.1 longTree longOptions longConfig hload, r, hr, hfit, ?_, ?_⟩
  · rw [hfit.iter]
    decide
  · cases hr
    decide +kernel

end CommandLine

end ReferenceDraws
