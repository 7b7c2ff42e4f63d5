import ReferenceDraws.Diagnostics.QualityChecks
import ReferenceDraws.Proofs.Double.Order

/-!
# What the checks ask for

The checks compare doubles with doubles.  Here they are stated with the numbers
that the bounds are meant to be.

* Bounds.  `essBound` is 400.  `rHatBound` is greater than 1.01, of which no
  double is the value, but no double lies between the two
  (`essBound_less_iff`, `less_rHatBound_iff`).
* Verdicts.  `essWithinBounds_evaluate` and `rHatBelow101_evaluate` say when
  the checks of the statistics pass, `allPassed_iff` when all of them do, and
  `failed_eq` which names are listed if they do not.
-/

namespace ReferenceDraws.QualityChecks

/-! ## Bounds -/

/-- The doubles greater than the bound of sample sizes are those above 400. -/
theorem essBound_less_iff (x : Double) : essBound.less x = true ↔ x.IsAbove 400 := by
  have hparts : essBound.isFinite = true ∧ essBound.isNegative = false ∧
      Double.significand essBound.magnitude = 25 * 2 ^ 48 ∧
      Double.scale essBound.magnitude = -44 := by decide +kernel
  obtain ⟨hfinite, hsign, hsignificand, hscale⟩ := hparts
  have hvalue : essBound.value = 400 := by
    rw [Double.value, hsign, if_neg Bool.false_ne_true, Double.size, hsignificand, hscale]
    norm_num
  rw [Double.less_iff_isAbove hfinite, hvalue]

/-- The doubles less than the bound of scale reduction factors are those below
1.01. -/
theorem less_rHatBound_iff (x : Double) : x.less rHatBound = true ↔ x.IsBelow (101 / 100) := by
  obtain ⟨m, hm⟩ : ∃ m, rHatBound.magnitude = m + 1 := Nat.exists_eq_add_one.2 (by decide)
  have hparts : rHatBound.isFinite = true ∧ rHatBound.isNegative = false ∧
      Double.significand rHatBound.magnitude = 4548635623644201 ∧
      Double.scale rHatBound.magnitude = -52 ∧
      Double.significand (rHatBound.magnitude - 1) = 4548635623644200 ∧
      Double.scale (rHatBound.magnitude - 1) = -52 := by decide +kernel
  obtain ⟨hfinite, hsign, hsignificand, hscale, hsignificand', hscale'⟩ := hparts
  rw [hm] at hsignificand hscale
  rw [hm, Nat.add_sub_cancel] at hsignificand' hscale'
  have hlow : Double.size m < 101 / 100 := by
    rw [Double.size, hsignificand', hscale']
    norm_num
  have hhigh : 101 / 100 ≤ Double.size (m + 1) := by
    rw [Double.size, hsignificand, hscale]
    norm_num
  rw [Double.less_iff_isBelow hfinite, Double.value, hsign, if_neg Bool.false_ne_true, hm,
    Double.isBelow_size_succ_iff hlow hhigh]

/-! ## Verdicts -/

theorem ndrawsIs10k_evaluate (r : DiagnosticsRecord) :
    (evaluate r).ndrawsIs10k = true ↔ r.ndraws.toNat = 10000 := by
  show decide (r.ndraws = requiredDraws) = true ↔ _
  rw [decide_eq_true_eq, ← UInt64.toNat_inj]
  rfl

theorem nchainsIsGte4_evaluate (r : DiagnosticsRecord) :
    (evaluate r).nchainsIsGte4 = true ↔ 4 ≤ r.nchains.toNat := by
  show decide (minChains ≤ r.nchains) = true ↔ _
  rw [decide_eq_true_eq, UInt64.le_iff_toNat_le]
  rfl

/-- The sample sizes are within bounds if every one is above 400. -/
theorem essWithinBounds_evaluate (r : DiagnosticsRecord) :
    (evaluate r).essWithinBounds = true ↔ ∀ x ∈ r.essBulk, x.IsAbove 400 := by
  rw [evaluate, List.all_eq_true]
  simp only [essBound_less_iff]

/-- The scale reduction factors are within bounds if every one is below 1.01. -/
theorem rHatBelow101_evaluate (r : DiagnosticsRecord) :
    (evaluate r).rHatBelow101 = true ↔ ∀ x ∈ r.rHat, x.IsBelow (101 / 100) := by
  rw [evaluate, List.all_eq_true]
  simp only [less_rHatBound_iff]

theorem allPassed_iff (c : QualityChecks) :
    c.allPassed = true ↔ c.ndrawsIs10k = true ∧ c.nchainsIsGte4 = true ∧
      c.essWithinBounds = true ∧ c.rHatBelow101 = true := by
  simp [allPassed, entries]

/-- The failed checks are listed in document order. -/
theorem failed_eq (c : QualityChecks) :
    c.failed = (if c.ndrawsIs10k then [] else ["ndraws_is_10k"]) ++
      (if c.nchainsIsGte4 then [] else ["nchains_is_gte_4"]) ++
      (if c.essWithinBounds then [] else ["ess_within_bounds"]) ++
      (if c.rHatBelow101 then [] else ["r_hat_below_1_01"]) := by
  obtain ⟨ndraws, nchains, ess, rHat⟩ := c
  cases ndraws <;> cases nchains <;> cases ess <;> cases rHat <;> rfl

end ReferenceDraws.QualityChecks
