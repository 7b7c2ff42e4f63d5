import ReferenceDraws.Summary.Table
import ReferenceDraws.Log

/-!
# Diagnostics of a run

The statistics of all parameters side by side, each list in the order of the parameter names.

* `DiagnosticsRecord.aggregate`: collects them from a summary table.
-/

namespace ReferenceDraws

/-- The diagnostics of a run. -/
structure DiagnosticsRecord where
  /-- The parameters in reporting order. -/
  parameterNames : List String
  /-- Draws of all chains. -/
  ndraws : UInt64
  /-- Chains. -/
  nchains : UInt64
  /-- Bulk effective sample size per parameter. -/
  essBulk : List Double
  /-- Tail effective sample size per parameter. -/
  essTail : List Double
  /-- Scale reduction factor per parameter. -/
  rHat : List Double
  /-- Divergent transitions per chain. -/
  divergentTransitions : List UInt64
deriving DecidableEq

namespace DiagnosticsRecord

/-- The auxiliary variable by which a sampler flags divergent transitions. -/
def divergenceSignal : String := "divergent__"

/-- What is reported when the sampler flags divergences. -/
def divergenceEvent : LogEvent :=
  ⟨.warn,
    "sampler reports divergences but per-chain counts are not propagated; recording zeros",
    [("signal", divergenceSignal)]⟩

/-- What is reported of a parameter without statistics. -/
def neutralEvent (parameter : String) : LogEvent :=
  ⟨.warn, "no summary row; using neutral diagnostics", [("parameter", parameter)]⟩

/-- Divergent transitions per chain. The sampler's counts are not read, so that all are zero,
whether or not divergences are flagged. -/
def divergences (nchains : UInt64) (methodVariables : List String) : Logged (List UInt64) :=
  ⟨if methodVariables.contains divergenceSignal then [divergenceEvent] else [],
    List.replicate nchains.toNat 0⟩

/-- The events of parameters without statistics, in order. -/
def neutralEvents (summary : SummaryTable) (parameters : List String) : List LogEvent :=
  (parameters.filter fun name => (summary.get? name).isNone).map neutralEvent

/-- Collects the statistics of parameters; one without a row has the neutral ones. -/
def aggregate (parameters : List String) (summary : SummaryTable) (nchains ndraws : UInt64)
    (methodVariables : List String) : Logged DiagnosticsRecord :=
  let divergent := divergences nchains methodVariables
  let rows := parameters.map summary.rowOrNeutral
  ⟨divergent.events ++ neutralEvents summary parameters,
    { parameterNames := parameters
      ndraws
      nchains
      essBulk := rows.map SummaryRow.essBulk
      essTail := rows.map SummaryRow.essTail
      rHat := rows.map SummaryRow.rHat
      divergentTransitions := divergent.value }⟩

/-! ## JSON -/

/-- A record as a value. -/
def toJson (r : DiagnosticsRecord) : Json :=
  .object [("parameter_names", .ofStrings r.parameterNames), ("ndraws", .ofUInt64 r.ndraws),
    ("nchains", .ofUInt64 r.nchains), ("ess_bulk", .ofDoubles r.essBulk),
    ("ess_tail", .ofDoubles r.essTail), ("r_hat", .ofDoubles r.rHat),
    ("divergent_transitions", .array (r.divergentTransitions.map .ofUInt64))]

/-- Reads a record. -/
def decode : Json.Decoder DiagnosticsRecord :=
  ((Json.RecordDecoder.map DiagnosticsRecord.mk
      (.required "parameter_names" (Json.Decoder.list Json.Decoder.string)))
    |>.and (.required "ndraws" Json.Decoder.size)
    |>.and (.required "nchains" Json.Decoder.size)
    |>.and (.required "ess_bulk" (Json.Decoder.list Json.Decoder.double))
    |>.and (.required "ess_tail" (Json.Decoder.list Json.Decoder.double))
    |>.and (.required "r_hat" (Json.Decoder.list Json.Decoder.double))
    |>.and (.required "divergent_transitions" (Json.Decoder.list Json.Decoder.word))).read
    "DiagnosticsRecord"

end DiagnosticsRecord

end ReferenceDraws
