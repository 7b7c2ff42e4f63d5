import ReferenceDraws.RunConfig.Basic

/-!
# Valid configurations

A configuration has five conditions to meet, which are checked in order.  They
are stated here over the natural numbers (`RunConfig.Violates`), where nothing
overflows.

* `validate_eq_firstFault?`: validation is a search through the conditions;
* `validate_eq_error_iff`: it names the first that is violated;
* `validate_eq_ok_iff`: it accepts what violates none.
-/

namespace ReferenceDraws.RunConfig

variable {c : RunConfig}

/-- What a fault says of a configuration. -/
def Violates (c : RunConfig) : Fault → Prop
  | .noChains => c.chains.toNat = 0
  | .noDraws => c.drawsPerChain.toNat = 0
  | .noThinning => c.thin.toNat = 0
  | .drawOverflow => maxWord < c.chains.toNat * c.drawsPerChain.toNat
  | .iterationOverflow => maxWord < c.drawsPerChain.toNat * c.thin.toNat + c.warmup.toNat

instance (c : RunConfig) : DecidablePred c.Violates
  | .noChains => inferInstanceAs (Decidable (_ = _))
  | .noDraws => inferInstanceAs (Decidable (_ = _))
  | .noThinning => inferInstanceAs (Decidable (_ = _))
  | .drawOverflow => inferInstanceAs (Decidable (_ < _))
  | .iterationOverflow => inferInstanceAs (Decidable (_ < _))

/-- The faults in the order of the conditions. -/
def Fault.inOrder : List Fault :=
  [.noChains, .noDraws, .noThinning, .drawOverflow, .iterationOverflow]

/-- The first fault that a configuration has. -/
def firstFault? (c : RunConfig) : Option Fault :=
  Fault.inOrder.find? fun fault => decide (c.Violates fault)

/-- Whether a fault is the first in order that a configuration has. -/
def FirstViolated (c : RunConfig) (fault : Fault) : Prop :=
  c.Violates fault ∧ ∃ before after, Fault.inOrder = before ++ fault :: after ∧
    ∀ other ∈ before, ¬ c.Violates other

/-- Validation searches the conditions for one that is violated. -/
theorem validate_eq_firstFault? (c : RunConfig) :
    c.validate =
      match c.firstFault? with
      | some fault => .error fault
      | none => .ok () := by
  have hzero : ∀ w : UInt64, w = 0 ↔ w.toNat = 0 := fun w => UInt64.toNat_inj.symm
  simp only [validate, firstFault?, hzero, Fault.inOrder, List.find?_cons, List.find?_nil,
    Violates]
  by_cases hchains : c.chains.toNat = 0
  · simp [hchains]
  by_cases hdraws : c.drawsPerChain.toNat = 0
  · simp [hchains, hdraws]
  by_cases hthin : c.thin.toNat = 0
  · simp [hchains, hdraws, hthin]
  by_cases htotal : maxWord < c.chains.toNat * c.drawsPerChain.toNat
  · simp [hchains, hdraws, hthin, htotal]
  by_cases hiter : maxWord < c.drawsPerChain.toNat * c.thin.toNat + c.warmup.toNat
  · simp [hchains, hdraws, hthin, htotal, hiter]
  · simp [hchains, hdraws, hthin, htotal, hiter]

/-- An invalid configuration is reported by its first fault. -/
theorem validate_eq_error_iff {fault : Fault} :
    c.validate = .error fault ↔ c.FirstViolated fault := by
  have hfirst : c.firstFault? = some fault ↔ c.FirstViolated fault := by
    rw [firstFault?, List.find?_eq_some_iff_append]
    simp [FirstViolated]
  rw [← hfirst, validate_eq_firstFault?]
  cases c.firstFault? with
  | none => simp
  | some other => simp

/-- A configuration is valid if it has chains, draws and a thinning interval,
and neither its draws nor its iterations exceed a word. -/
theorem validate_eq_ok_iff :
    c.validate = .ok () ↔
      0 < c.chains.toNat ∧ 0 < c.drawsPerChain.toNat ∧ 0 < c.thin.toNat ∧
        c.chains.toNat * c.drawsPerChain.toNat ≤ maxWord ∧
        c.drawsPerChain.toNat * c.thin.toNat + c.warmup.toNat ≤ maxWord := by
  have hnone : c.validate = .ok () ↔ c.firstFault? = none := by
    rw [validate_eq_firstFault?]
    cases c.firstFault? with
    | none => simp
    | some fault => simp
  rw [hnone, firstFault?, List.find?_eq_none]
  simp only [decide_eq_true_eq]
  simp only [Fault.inOrder, List.forall_mem_cons, Violates, Nat.not_lt, ← Nat.pos_iff_ne_zero]
  simp

/-- A valid configuration keeps draws of each chain. -/
theorem drawsPerChain_pos (h : c.validate = .ok ()) : 0 < c.drawsPerChain.toNat :=
  (validate_eq_ok_iff.1 h).2.1

end ReferenceDraws.RunConfig
