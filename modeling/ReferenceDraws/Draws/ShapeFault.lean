import ReferenceDraws.Failure

/-!
# Faults of shape

The ways in which draws fail to have the shape that is asked of them.
-/

namespace ReferenceDraws

/-- Why draws do not have the shape asked for. -/
inductive ShapeFault where
  /-- A row is not as long as the first. -/
  | raggedRows (row expected found : Nat)
  /-- A buffer does not divide into rows. -/
  | unevenBuffer (length dim : Nat)
  /-- The draws do not divide into blocks of all chains. -/
  | layout (totalDraws : Nat) (chains drawsPerChain : UInt64)
  /-- There is no such chain. -/
  | noChain (chain chains : UInt64)
  /-- An element of a variable that has none. -/
  | indexOnScalar (index : UInt64)
  /-- An element beyond the last. -/
  | indexBounds (index : UInt64) (dim : Nat)
deriving DecidableEq

namespace ShapeFault

/-- What is known of a fault of shape. -/
def report : ShapeFault → Report
  | .raggedRows row expected found =>
    .of "pdbref_draws.ragged_rows" "draw rows differ in length"
      [("row", toString row), ("expected", toString expected), ("found", toString found)]
  | .unevenBuffer length dim =>
    .of "pdbref_draws.row_major" "buffer length is not a multiple of the dimension"
      [("len", toString length), ("dim", toString dim)]
  | .layout totalDraws chains drawsPerChain =>
    (Report.of "pdbref_draws.chain_layout"
      "draw count is not a multiple of chains * draws_per_chain"
      [("total_draws", toString totalDraws), ("chains", toString chains.toNat),
        ("draws_per_chain", toString drawsPerChain.toNat)]).withHint
      "chains and draws_per_chain must describe the sampler run"
  | .noChain chain chains =>
    .of "pdbref_draws.chain_index" "chain index out of range"
      [("chain", toString chain.toNat), ("chains", toString chains.toNat)]
  | .indexOnScalar index =>
    .of "pdbref_draws.index_on_scalar" "indexed parameter refers to a one-dimensional variable"
      [("index", toString index.toNat)]
  | .indexBounds index dim =>
    .of "pdbref_draws.index_bounds" "index out of bounds"
      [("index", toString index.toNat), ("dim", toString dim)]

/-- The failure of a fault of shape. -/
def failure (f : ShapeFault) : Failure := ⟨.shapeMismatch, f.report⟩

end ShapeFault

end ReferenceDraws
