import ReferenceDraws.Proofs.Draws.Assembly
import ReferenceDraws.Proofs.Outcome
import ReferenceDraws.Proofs.RunConfig.Totals
import ReferenceDraws.Reference.Run

/-!
# What a generated reference is made of

The stages of `ReferenceRun.generate`, all of which a generated reference
has gone through.

* `exists_of_generate`: the parts of the output, the assembly and the
  diagnostics that make a run;
* `length_chains_of_generate`, `ne_rows_nil_of_generate`: the chains are as
  many as configured, and none has a series without rows.
-/

namespace ReferenceDraws.ReferenceRun

variable {name : String} {output : SamplerOutput} {config : RunConfig}
  {options : AssemblyOptions} {r : ReferenceRun}

/-- A generated reference comes from a valid configuration and a complete
output, by way of an assembly. -/
theorem exists_of_generate (h : (generate name output config options).value = .ok r) :
    ∃ summary matrix auxiliary a, config.validate = .ok () ∧ output.summary = .ok summary ∧
      output.draws = .ok matrix ∧ output.methodVariables = .ok auxiliary ∧
      (assemble summary.parameterNames matrix config options).value = .ok a ∧
      r = ⟨name, config, a.chains, (DiagnosticsRecord.aggregate summary.parameterNames summary
        config.chains config.totalDraws auxiliary).value, a.omitted⟩ := by
  obtain ⟨u, hvalid, h⟩ := andThen_eq_ok_iff.1 h
  obtain ⟨summary, hsummary, h⟩ := andThen_eq_ok_iff.1 h
  obtain ⟨matrix, hmatrix, h⟩ := andThen_eq_ok_iff.1 h
  obtain ⟨a, hassemble, h⟩ := andThen_eq_ok_iff.1 h
  obtain ⟨auxiliary, hauxiliary, h⟩ := andThen_eq_ok_iff.1 h
  cases h
  exact ⟨summary, matrix, auxiliary, a, mapError_eq_ok_iff.1 hvalid, hsummary, hmatrix,
    hauxiliary, mapError_eq_ok_iff.1 hassemble, rfl⟩

/-- A run is named after its posterior. -/
theorem name_of_generate (h : (generate name output config options).value = .ok r) :
    r.name = name := by
  obtain ⟨summary, matrix, auxiliary, a, -, -, -, -, -, rfl⟩ := exists_of_generate h
  rfl

/-- A reference has a chain for each one configured. -/
theorem length_chains_of_generate (h : (generate name output config options).value = .ok r) :
    r.chains.length = r.config.chains.toNat := by
  obtain ⟨summary, matrix, auxiliary, a, -, -, -, -, hassemble, rfl⟩ := exists_of_generate h
  obtain ⟨collected, -, hrows, hchains, -⟩ := Assembly.exists_collected hassemble
  show a.chains.length = config.chains.toNat
  rw [hchains]
  exact (Assembly.getElem?_chainsOf hrows).1

/-- The diagnostics count the chains of the configuration. -/
theorem nchains_of_generate (h : (generate name output config options).value = .ok r) :
    r.diagnostics.nchains = r.config.chains := by
  obtain ⟨summary, matrix, auxiliary, a, -, -, -, -, -, rfl⟩ := exists_of_generate h
  rfl

/-- No series of a reference is without rows. -/
theorem ne_rows_nil_of_generate (h : (generate name output config options).value = .ok r)
    {chain : ChainDraws} (hchain : chain ∈ r.chains) {e : String × Series}
    (he : e ∈ chain.entries) : e.2 ≠ .rows [] := by
  obtain ⟨summary, matrix, auxiliary, a, hvalid, -, -, -, hassemble, rfl⟩ := exists_of_generate h
  obtain ⟨array, index, start, hblock⟩ := Assembly.isBlock_of_mem_entries hassemble hchain he
  have hpos := RunConfig.drawsPerChain_pos hvalid
  intro hnil
  rw [hnil] at hblock
  exact absurd hblock.1 (Nat.ne_of_lt hpos)

end ReferenceDraws.ReferenceRun
