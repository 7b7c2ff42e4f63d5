import ReferenceDraws.Proofs.Outcome
import ReferenceDraws.Proofs.RunConfig.Validity

/-!
# The totals of a configuration

Totals are words, and every total is the exact one or, where that exceeds a
word, the greatest word (`toNat_totalDraws`, `toNat_iterSampling`,
`toNat_iterTotal`).  A valid configuration has no total that exceeds a word,
so that its totals are exact.

A sampler counts its iterations before thinning.  `exists_ofSampling_iff` says
which of its arguments make a configuration.  Iterations that do not fill a
thinning interval are left out, and there are fewer of them than the interval
has (`iterSampling_of_ofSampling`).
-/

namespace ReferenceDraws

theorem toNat_saturate (n : Nat) : (saturate n).toNat = min n maxWord := by
  apply UInt64.toNat_ofNat_of_lt'
  have hle : min n maxWord ≤ maxWord := Nat.min_le_right n maxWord
  rw [maxWord] at hle ⊢
  have hpos : 0 < UInt64.size := by decide
  omega

namespace RunConfig

variable {c : RunConfig}

/-! ## Saturation -/

theorem toNat_totalDraws (c : RunConfig) :
    c.totalDraws.toNat = min (c.chains.toNat * c.drawsPerChain.toNat) maxWord :=
  toNat_saturate _

theorem toNat_iterSampling (c : RunConfig) :
    c.iterSampling.toNat = min (c.drawsPerChain.toNat * c.thin.toNat) maxWord :=
  toNat_saturate _

/-- The iterations of a chain saturate once, although they are added up in two
steps. -/
theorem toNat_iterTotal (c : RunConfig) :
    c.iterTotal.toNat =
      min (c.drawsPerChain.toNat * c.thin.toNat + c.warmup.toNat) maxWord := by
  rw [iterTotal, toNat_saturate, toNat_iterSampling]
  omega

/-! ## Exact totals -/

theorem toNat_totalDraws_of_validate (h : c.validate = .ok ()) :
    c.totalDraws.toNat = c.chains.toNat * c.drawsPerChain.toNat := by
  obtain ⟨-, -, -, htotal, -⟩ := validate_eq_ok_iff.1 h
  rw [toNat_totalDraws, Nat.min_eq_left htotal]

theorem toNat_iterSampling_of_validate (h : c.validate = .ok ()) :
    c.iterSampling.toNat = c.drawsPerChain.toNat * c.thin.toNat := by
  obtain ⟨-, -, -, -, hiter⟩ := validate_eq_ok_iff.1 h
  rw [toNat_iterSampling, Nat.min_eq_left (Nat.le_trans (Nat.le_add_right _ _) hiter)]

theorem toNat_iterTotal_of_validate (h : c.validate = .ok ()) :
    c.iterTotal.toNat = c.drawsPerChain.toNat * c.thin.toNat + c.warmup.toNat := by
  obtain ⟨-, -, -, -, hiter⟩ := validate_eq_ok_iff.1 h
  rw [toNat_iterTotal, Nat.min_eq_left hiter]

/-! ## The sampler's arguments -/

section OfSampling

variable {chains iterSampling iterWarmup thin seed : UInt64}

theorem ofSampling_eq_ok_iff :
    ofSampling chains iterSampling iterWarmup thin seed = .ok c ↔
      thin ≠ 0 ∧ c = ⟨chains, iterSampling / thin, iterWarmup, thin, seed⟩ ∧
        c.validate = .ok () := by
  unfold ofSampling
  by_cases hthin : thin = 0
  · rw [if_pos hthin]
    exact iff_of_false (fun h => nomatch h) fun h => h.1 hthin
  · rw [if_neg hthin]
    show (validate ⟨chains, iterSampling / thin, iterWarmup, thin, seed⟩ >>= fun _ => pure _) =
      .ok c ↔ _
    rw [bind_eq_ok_iff]
    constructor
    · intro h
      obtain ⟨_, hvalid, hc⟩ := h
      cases hc
      exact ⟨hthin, rfl, hvalid⟩
    · intro h
      obtain ⟨-, hc, hvalid⟩ := h
      subst hc
      exact ⟨(), hvalid, rfl⟩

/-- The arguments that make a configuration: there are chains and a thinning
interval, each chain keeps a draw, and nothing exceeds a word. -/
theorem exists_ofSampling_iff :
    (∃ c, ofSampling chains iterSampling iterWarmup thin seed = .ok c) ↔
      1 ≤ thin.toNat ∧ 1 ≤ chains.toNat ∧ thin.toNat ≤ iterSampling.toNat ∧
        chains.toNat * (iterSampling.toNat / thin.toNat) ≤ maxWord ∧
        iterSampling.toNat / thin.toNat * thin.toNat + iterWarmup.toNat ≤ maxWord := by
  have hzero : thin ≠ 0 ↔ 1 ≤ thin.toNat := by
    rw [Nat.one_le_iff_ne_zero, ne_eq, ne_eq, ← UInt64.toNat_inj]
    rfl
  simp only [ofSampling_eq_ok_iff, hzero, exists_and_left, exists_eq_left, validate_eq_ok_iff,
    UInt64.toNat_div]
  constructor
  · intro h
    obtain ⟨hthin, hchains, hdraws, -, htotal, hiter⟩ := h
    exact ⟨hthin, hchains, (Nat.div_pos_iff.1 hdraws).2, htotal, hiter⟩
  · intro h
    obtain ⟨hthin, hchains, hle, htotal, hiter⟩ := h
    exact ⟨hthin, hchains, Nat.div_pos hle hthin, hthin, htotal, hiter⟩

/-- Of the iterations those that do not fill a thinning interval are left
out. -/
theorem iterSampling_of_ofSampling
    (h : ofSampling chains iterSampling iterWarmup thin seed = .ok c) :
    iterSampling.toNat < c.iterSampling.toNat + thin.toNat ∧
      c.iterSampling.toNat ≤ iterSampling.toNat := by
  obtain ⟨-, hc, hvalid⟩ := ofSampling_eq_ok_iff.1 h
  obtain ⟨-, -, hthin, -, -⟩ := validate_eq_ok_iff.1 hvalid
  rw [toNat_iterSampling_of_validate hvalid]
  subst hc
  rw [UInt64.toNat_div]
  exact ⟨Nat.lt_div_mul_add hthin, Nat.div_mul_le_self _ _⟩

end OfSampling

/-- Every count of a configuration is exact or, where it exceeds a word, the
greatest word.  A configuration is valid where its numbers are positive and
its draws and iterations fit a word, and then its counts are exact; otherwise
it is reported by the first condition that it violates.  The sampler's
arguments make a configuration under the same conditions, and it leaves out
fewer iterations than one thinning interval has. -/
theorem counts_exact_where_valid :
    (∀ c : RunConfig,
      (c.totalDraws.toNat = min (c.chains.toNat * c.drawsPerChain.toNat) maxWord ∧
        c.iterSampling.toNat = min (c.drawsPerChain.toNat * c.thin.toNat) maxWord ∧
        c.iterTotal.toNat =
          min (c.drawsPerChain.toNat * c.thin.toNat + c.warmup.toNat) maxWord) ∧
      (c.validate = .ok () ↔
        0 < c.chains.toNat ∧ 0 < c.drawsPerChain.toNat ∧ 0 < c.thin.toNat ∧
          c.chains.toNat * c.drawsPerChain.toNat ≤ maxWord ∧
          c.drawsPerChain.toNat * c.thin.toNat + c.warmup.toNat ≤ maxWord) ∧
      (c.validate = .ok () →
        c.totalDraws.toNat = c.chains.toNat * c.drawsPerChain.toNat ∧
          c.iterSampling.toNat = c.drawsPerChain.toNat * c.thin.toNat ∧
          c.iterTotal.toNat = c.drawsPerChain.toNat * c.thin.toNat + c.warmup.toNat) ∧
      ∀ fault, c.validate = .error fault ↔ c.FirstViolated fault) ∧
    Fault.inOrder.map (fun fault =>
      (fault.failure.report.context.get? "field", fault.failure.report.message)) =
      [(some "chains", "chains must be positive"),
        (some "draws_per_chain", "draws_per_chain must be positive"),
        (some "thin", "thin must be positive"),
        (some "chains", "chains * draws_per_chain overflows the draw count"),
        (some "thin", "draws_per_chain * thin + warmup overflows the iteration count")] ∧
    ∀ chains iterSampling iterWarmup thin seed,
      ((∃ c, ofSampling chains iterSampling iterWarmup thin seed = .ok c) ↔
        1 ≤ thin.toNat ∧ 1 ≤ chains.toNat ∧ thin.toNat ≤ iterSampling.toNat ∧
          chains.toNat * (iterSampling.toNat / thin.toNat) ≤ maxWord ∧
          iterSampling.toNat / thin.toNat * thin.toNat + iterWarmup.toNat ≤ maxWord) ∧
      ∀ c, ofSampling chains iterSampling iterWarmup thin seed = .ok c →
        iterSampling.toNat < c.iterSampling.toNat + thin.toNat ∧
          c.iterSampling.toNat ≤ iterSampling.toNat := by
  refine ⟨fun c => ⟨⟨toNat_totalDraws c, toNat_iterSampling c, toNat_iterTotal c⟩,
    validate_eq_ok_iff, fun hvalid => ?_, fun fault => validate_eq_error_iff⟩,
    by decide, fun chains iterSampling iterWarmup thin seed => ⟨exists_ofSampling_iff, ?_⟩⟩
  · exact ⟨toNat_totalDraws_of_validate hvalid, toNat_iterSampling_of_validate hvalid,
      toNat_iterTotal_of_validate hvalid⟩
  · intro c hc
    exact iterSampling_of_ofSampling hc

/-- A configuration whose iterations just fit a word. -/
def greatestConfig : RunConfig :=
  { chains := 4294967295, drawsPerChain := 4294967297, thin := 3,
    warmup := 18446744060824649724 }

/-- The greatest counts that fit a word are exact, and of 1009 iterations nine
are left out. -/
theorem counts_exact_where_valid_greatest :
    greatestConfig.validate = .ok () ∧
      greatestConfig.totalDraws.toNat = 18446744073709551615 ∧
      greatestConfig.iterTotal.toNat = 18446744073709551615 ∧
      ∃ c, ofSampling 4 1009 500 10 1 = .ok c ∧
        1009 < c.iterSampling.toNat + 10 ∧ c.iterSampling.toNat ≤ 1009 := by
  obtain ⟨hconfig, -, harguments⟩ := counts_exact_where_valid
  obtain ⟨-, hvalid, hexact, -⟩ := hconfig greatestConfig
  have hgreatest : greatestConfig.validate = .ok () := hvalid.2 (by decide)
  obtain ⟨htotal, -, hiter⟩ := hexact hgreatest
  obtain ⟨haccepted, hleft⟩ := harguments 4 1009 500 10 1
  obtain ⟨c, hc⟩ := haccepted.2 (by decide)
  refine ⟨hgreatest, ?_, ?_, c, hc, hleft c hc⟩
  · rw [htotal]
    decide
  · rw [hiter]
    decide

end RunConfig

end ReferenceDraws
