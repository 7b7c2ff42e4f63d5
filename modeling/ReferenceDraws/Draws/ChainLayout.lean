import ReferenceDraws.Draws.DrawArray
import ReferenceDraws.RunConfig.Basic

/-!
# The layout of chains

Merged draws hold the chains one after another, each a block of equally many draws. The layout is
assumed of the sampler; only the number of draws is checked against it, and a multiple of one
layout stands for its leading block.

* `ChainLayout.bounds`: where a chain lies;
* `ChainLayout.split`: the draws of a chain.
-/

namespace ReferenceDraws.ChainLayout

/-- Positions from `start` up to, not including, `stop`. -/
structure Span where
  /-- The first position. -/
  start : Nat
  /-- The position after the last. -/
  stop : Nat
deriving DecidableEq

/-- The draws that a layout has in all; none if they are none or exceed a word. -/
def blockSize? (chains drawsPerChain : UInt64) : Option Nat :=
  let n := chains.toNat * drawsPerChain.toNat
  if n = 0 ∨ maxWord < n then none else some n

/-- Where a chain lies among draws that are a positive multiple of the layout. -/
def bounds (totalDraws : Nat) (chain chains drawsPerChain : UInt64) : Except ShapeFault Span :=
  let valid :=
    match blockSize? chains drawsPerChain with
    | some n => totalDraws ≠ 0 && totalDraws % n = 0
    | none => false
  if !valid then .error (.layout totalDraws chains drawsPerChain)
  else if chains ≤ chain then .error (.noChain chain chains)
  else
    let start := chain.toNat * drawsPerChain.toNat
    .ok ⟨start, start + drawsPerChain.toNat⟩

/-- The rows of a span. -/
def rowsOf (a : DrawArray) (span : Span) : List (List Double) :=
  (List.range' span.start (span.stop - span.start)).map a.row

/-- The entries of a column, counted from zero, in the rows of a span. -/
def columnOf (a : DrawArray) (span : Span) (column : Nat) : List Double :=
  (rowsOf a span).filterMap (·[column]?)

/-- The draws of a chain: numbers of a variable that is one, an element of the rows of a vector
variable, or without an index its whole rows. Elements count from one. -/
def split (a : DrawArray) (chain chains drawsPerChain : UInt64) (index : Option UInt64) :
    Except ShapeFault Series := do
  let span ← bounds a.totalDraws chain chains drawsPerChain
  match a.dim, index with
  | none, none => pure (.scalar (a.slice span.start span.stop))
  | none, some index => throw (.indexOnScalar index)
  | some dim, some index =>
    if index = 0 ∨ dim < index.toNat then throw (.indexBounds index dim)
    else pure (.scalar (columnOf a span (index.toNat - 1)))
  | some _, none => pure (.rows (rowsOf a span))

end ReferenceDraws.ChainLayout
