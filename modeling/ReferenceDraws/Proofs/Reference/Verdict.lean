import ReferenceDraws.Proofs.Diagnostics.QualityChecks
import ReferenceDraws.Proofs.Reference.Run
import ReferenceDraws.Proofs.Summary.Table

/-!
# The verdict on a reference

The verdict on a reference is one on the cells of a summary.  Between the two
stand the rows, the table and the diagnostics.

* Statistics.  `statistics_of_generate` takes the statistics of a reference
  back to the last records of the parameters, and `counts_of_generate` its
  counts to the configuration.
* The verdict.  `QualityChecks.Follows` is how verdicts follow from a table of
  text and a configuration, and `verdict_of_generate` says that those on a
  generated reference follow from the summary of its output, as do those in
  its document.
-/

namespace ReferenceDraws

open SummaryTable

/-- How verdicts follow from a summary and from a configuration.  Whether a
reference has draws of a parameter does not matter. -/
structure QualityChecks.Follows (c : QualityChecks) (table : Csv.Table) (config : RunConfig) :
    Prop where
  essWithinBounds : c.essWithinBounds = true ↔
    ∀ name record, IsRecordOf table name record →
      ∃ x, EffectiveSize table.header record x ∧ x.IsAbove 400
  rHatBelow101 : c.rHatBelow101 = true ↔
    ∀ name record, IsRecordOf table name record →
      ∀ x, Reports table.header record "R_hat" x → x.IsBelow (101 / 100)
  allPassed : c.allPassed = true ↔ c.essWithinBounds = true ∧ c.rHatBelow101 = true ∧
    config.chains.toNat * config.drawsPerChain.toNat = 10000 ∧ 4 ≤ config.chains.toNat
  failed : c.failed =
    (if config.chains.toNat * config.drawsPerChain.toNat = 10000 then [] else ["ndraws_is_10k"]) ++
      (if 4 ≤ config.chains.toNat then [] else ["nchains_is_gte_4"]) ++
      (if c.essWithinBounds then [] else ["ess_within_bounds"]) ++
      (if c.rHatBelow101 then [] else ["r_hat_below_1_01"])
  /-- A parameter without an effective sample size does not pass. -/
  unreported : ∀ name record, IsRecordOf table name record →
    (∀ x, ¬ Reports table.header record "N_Eff" x) →
    (∀ x, ¬ Reports table.header record "ESS_bulk" x) →
      c.essWithinBounds = false ∧ c.allPassed = false

namespace ReferenceRun

variable {name : String} {output : SamplerOutput} {config : RunConfig}
  {options : AssemblyOptions} {r : ReferenceRun} {bytes : List UInt8} {table : Csv.Table}

/-! ## Statistics -/

/-- The statistics of a reference are those of the last records of the
parameters. -/
theorem statistics_of_generate (hread : Csv.read bytes = .ok table)
    (hsummary : output.summary = ofCsv bytes)
    (h : (generate name output config options).value = .ok r) :
    (∀ P : Double → Prop, (∀ x ∈ r.diagnostics.essBulk, P x) ↔
      ∀ name record, IsRecordOf table name record →
        P (SummaryRow.ofColumns (numericColumns table.header record)).essBulk) ∧
    ∀ P : Double → Prop, (∀ x ∈ r.diagnostics.rHat, P x) ↔
      ∀ name record, IsRecordOf table name record →
        P (SummaryRow.ofColumns (numericColumns table.header record)).rHat := by
  obtain ⟨summary, matrix, auxiliary, a, -, hpart, -, -, -, rfl⟩ := exists_of_generate h
  rw [hsummary, ofCsv, hread] at hpart
  cases hpart
  constructor
  · intro P
    rw [← forall_parameterNames_iff table fun row => P row.essBulk]
    simp [DiagnosticsRecord.aggregate]
  · intro P
    rw [← forall_parameterNames_iff table fun row => P row.rHat]
    simp [DiagnosticsRecord.aggregate]

/-- The counts of a reference are those of its configuration. -/
theorem counts_of_generate (h : (generate name output config options).value = .ok r) :
    r.diagnostics.ndraws.toNat = config.chains.toNat * config.drawsPerChain.toNat ∧
      r.diagnostics.nchains = config.chains := by
  obtain ⟨summary, matrix, auxiliary, a, hvalid, -, -, -, -, rfl⟩ := exists_of_generate h
  exact ⟨RunConfig.toNat_totalDraws_of_validate hvalid, rfl⟩

/-! ## The verdict -/

/-- The verdicts on a reference follow from the summary and the configuration,
and are those of its document. -/
theorem verdict_of_generate (hread : Csv.read bytes = .ok table)
    (hsummary : output.summary = ofCsv bytes)
    (h : (generate name output config options).value = .ok r) :
    r.checks.Follows table config ∧
      ∀ provenance, (r.document provenance).checksMade = r.checks := by
  obtain ⟨hsizes, hfactors⟩ := statistics_of_generate hread hsummary h
  obtain ⟨hdraws, hchains⟩ := counts_of_generate h
  have hess : r.checks.essWithinBounds = true ↔
      ∀ name record, IsRecordOf table name record →
        ∃ x, EffectiveSize table.header record x ∧ x.IsAbove 400 := by
    rw [checks, QualityChecks.essWithinBounds_evaluate, hsizes]
    simp only [effectiveSize_iff, exists_eq_left']
  have hten : r.checks.ndrawsIs10k = true ↔
      config.chains.toNat * config.drawsPerChain.toNat = 10000 := by
    rw [checks, QualityChecks.ndrawsIs10k_evaluate, hdraws]
  have hfour : r.checks.nchainsIsGte4 = true ↔ 4 ≤ config.chains.toNat := by
    rw [checks, QualityChecks.nchainsIsGte4_evaluate, hchains]
  refine ⟨?_, fun _ => rfl⟩
  constructor
  case essWithinBounds => exact hess
  case rHatBelow101 =>
    -- One, which stands in for a factor that is not reported, is below the bound.
    have hone : Double.one.IsBelow (101 / 100) := by
      rw [← QualityChecks.less_rHatBound_iff]
      decide
    rw [checks, QualityChecks.rHatBelow101_evaluate, hfactors]
    simp only [rHat_ofColumns_iff (P := (·.IsBelow (101 / 100))) hone]
  case allPassed =>
    rw [QualityChecks.allPassed_iff, hten, hfour]
    tauto
  case failed =>
    rw [QualityChecks.failed_eq]
    simp only [hten, hfour]
  case unreported =>
    intro n record hrecord hlegacy hbulk
    have hfails : r.checks.essWithinBounds = false := by
      rw [Bool.eq_false_iff, ne_eq, hess]
      intro hall
      obtain ⟨x, hx, habove⟩ := hall n record hrecord
      have hzero : x = .zero := (effectiveSize_iff.1 hx).symm.trans
        (effectiveSize_iff.1 (.absent hlegacy hbulk))
      rw [hzero, ← QualityChecks.essBound_less_iff] at habove
      exact absurd habove (by decide)
    refine ⟨hfails, ?_⟩
    rw [Bool.eq_false_iff, ne_eq, QualityChecks.allPassed_iff, hfails]
    simp

/-- A summary with two records of a parameter and with one of a parameter
without numbers. -/
def judgedBytes : List UInt8 := Text.encode <|
  "# toy\nname,Mean,N_Eff,ESS_bulk,R_hat\nlp__,-7.1,12,12,1.2\ntheta,0.5,,90,1.5\n" ++
    "mu,0.1,n/a,820,\ntheta,0.5,400.5,3,1.0099\nsigma,1,-,-,1.5e0x\n"

/-- Its cells. -/
def judgedTable : Csv.Table where
  header := ["name", "Mean", "N_Eff", "ESS_bulk", "R_hat"]
  records := [["lp__", "-7.1", "12", "12", "1.2"], ["theta", "0.5", "", "90", "1.5"],
    ["mu", "0.1", "n/a", "820", ""], ["theta", "0.5", "400.5", "3", "1.0099"],
    ["sigma", "1", "-", "-", "1.5e0x"]]

/-- The summary without draws. -/
def judgedOutput : SamplerOutput := .ofParts (ofTable judgedTable) .empty []

/-- As many draws and chains as a reference has. -/
def judgedConfig : RunConfig := { chains := 4, drawsPerChain := 2500 }

/-- A parameter that has neither draws nor an effective sample size fails its
check. -/
theorem verdict_of_generate_judged :
    Csv.read judgedBytes = .ok judgedTable ∧
      judgedOutput.summary = ofCsv judgedBytes ∧
      ∃ r, (generate "toy" judgedOutput judgedConfig {}).value = .ok r ∧
        r.checks.Follows judgedTable judgedConfig ∧
        r.omitted = ["theta", "mu", "sigma"] ∧ r.checks.failed = ["ess_within_bounds"] := by
  have hread : Csv.read judgedBytes = .ok judgedTable :=
    toOption_eq_some_iff.1 (by decide +kernel)
  have hsummary : judgedOutput.summary = ofCsv judgedBytes := by
    rw [ofCsv, hread]
    rfl
  have hrun : (generate "toy" judgedOutput judgedConfig {}).value.toOption.map
      (fun r => (r.omitted, r.checks.failed)) =
        some (["theta", "mu", "sigma"], ["ess_within_bounds"]) := by decide +kernel
  obtain ⟨r, hsome, hresult⟩ := Option.map_eq_some_iff.1 hrun
  rw [toOption_eq_some_iff] at hsome
  rw [Prod.mk.injEq] at hresult
  exact ⟨hread, hsummary, r, hsome, (verdict_of_generate hread hsummary hsome).1, hresult⟩

end ReferenceRun

end ReferenceDraws
