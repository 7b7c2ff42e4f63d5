import ReferenceDraws.Diagnostics.Record

/-!
# Quality checks

What a run must fulfil to serve as a reference: a fixed number of draws, enough chains, and
effective sample sizes and scale reduction factors within bounds for every parameter.

* `QualityChecks.evaluate`: the verdicts on a run.
-/

namespace ReferenceDraws

/-- The verdicts on a run. -/
structure QualityChecks where
  /-- The run has exactly as many draws as a reference needs. -/
  ndrawsIs10k : Bool
  /-- The run has enough chains. -/
  nchainsIsGte4 : Bool
  /-- Every bulk effective sample size is above the bound. -/
  essWithinBounds : Bool
  /-- Every scale reduction factor is below the bound. -/
  rHatBelow101 : Bool
deriving DecidableEq

namespace QualityChecks

/-- The draws that a reference has. -/
def requiredDraws : UInt64 := 10000

/-- The fewest chains that a reference has. -/
def minChains : UInt64 := 4

/-- What a bulk effective sample size has to exceed: 400. -/
def essBound : Double := ⟨0x4079000000000000⟩

/-- What a scale reduction factor has to stay below: 1.01. -/
def rHatBound : Double := ⟨0x3ff028f5c28f5c29⟩

/-- The bounds are the doubles nearest to their numerals. -/
theorem bounds_eq :
    essBound = Decimal.toDouble ⟨false, 400, 0⟩ ∧
      rHatBound = Decimal.toDouble ⟨false, 101, -2⟩ := by
  decide +kernel

/-- The verdicts on a run; a statistic that is no number fails its check. -/
def evaluate (r : DiagnosticsRecord) : QualityChecks where
  ndrawsIs10k := r.ndraws = requiredDraws
  nchainsIsGte4 := minChains ≤ r.nchains
  essWithinBounds := r.essBulk.all (essBound.less ·)
  rHatBelow101 := r.rHat.all (·.less rHatBound)

/-- The checks by name, in document order. -/
def entries (c : QualityChecks) : List (String × Bool) :=
  [("ndraws_is_10k", c.ndrawsIs10k), ("nchains_is_gte_4", c.nchainsIsGte4),
    ("ess_within_bounds", c.essWithinBounds), ("r_hat_below_1_01", c.rHatBelow101)]

/-- Whether every check passed. -/
def allPassed (c : QualityChecks) : Bool := c.entries.all Prod.snd

/-- The names of the checks that failed. -/
def failed (c : QualityChecks) : List String :=
  (c.entries.filter fun e => !e.2).map Prod.fst

/-! ## JSON -/

/-- Verdicts as a value. -/
def toJson (c : QualityChecks) : Json := .object (c.entries.map fun e => (e.1, .bool e.2))

/-- Reads verdicts. -/
def decode : Json.Decoder QualityChecks :=
  ((Json.RecordDecoder.map QualityChecks.mk (.required "ndraws_is_10k" Json.Decoder.bool))
    |>.and (.required "nchains_is_gte_4" Json.Decoder.bool)
    |>.and (.required "ess_within_bounds" Json.Decoder.bool)
    |>.and (.required "r_hat_below_1_01" Json.Decoder.bool)).read "QualityChecks"

end QualityChecks

end ReferenceDraws
