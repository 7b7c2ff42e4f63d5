import Mathlib.Data.List.Basic
import ReferenceDraws.Proofs.Diagnostics.Record
import ReferenceDraws.Proofs.Reference.Run

/-!
# Chains and diagnostics of one run

The chains of a reference and its diagnostics are made by two walks over the
parameters of a summary.  One walk leaves parameters out and the other does
not, and both results are keyed by name.  This module says how they fit
together.

* Merging.  `merge_filter_not` puts two parts of a list back together, in the
  order of the keys of a table.
* The run.  `ReferenceRun.Aligned` is how the parts of a run fit a summary, and
  `aligned_of_generate` says that every generated reference fits its own.
-/

namespace ReferenceDraws

/-! ## Merging -/

namespace SummaryTable

/-- Whether a name stands no later in a table than another. -/
def inOrder (t : SummaryTable) (a b : String) : Bool := t.keys.idxOf a ≤ t.keys.idxOf b

/-- Names that stand in a table are listed in its order. -/
theorem pairwise_inOrder {t : SummaryTable} {names : List String} (h : names.Sublist t.keys) :
    names.Pairwise fun a b => t.inOrder a b = true := by
  refine List.Pairwise.sublist h (List.pairwise_iff_getElem.2 fun i j hi hj hlt => ?_)
  rw [inOrder, decide_eq_true_eq, t.keys_nodup.idxOf_getElem i hi, t.keys_nodup.idxOf_getElem j hj]
  exact Nat.le_of_lt hlt

/-- The names that pass a test and those that do not merge to all of them. -/
theorem merge_filter_not {t : SummaryTable} {names : List String} (h : names.Sublist t.keys)
    (test : String → Bool) :
    (names.filter test).merge (names.filter fun n => !test n) t.inOrder = names := by
  have hperm : ((names.filter test).merge (names.filter fun n => !test n) t.inOrder).Perm names :=
    (List.merge_perm_append t.inOrder).trans (List.filter_append_perm test names)
  have hmerged : ((names.filter test).merge (names.filter fun n => !test n) t.inOrder).Pairwise
      fun a b => t.inOrder a b = true := by
    refine List.pairwise_merge ?_ ?_ _ _ ?_ ?_
    · intro a b c hab hbc
      rw [inOrder, decide_eq_true_eq] at *
      exact Nat.le_trans hab hbc
    · intro a b
      rw [inOrder, inOrder, Bool.or_eq_true, decide_eq_true_eq, decide_eq_true_eq]
      exact Nat.le_total _ _
    · exact pairwise_inOrder (List.filter_sublist.trans h)
    · exact pairwise_inOrder (List.filter_sublist.trans h)
  refine List.Perm.eq_of_pairwise ?_ hmerged (pairwise_inOrder h) hperm
  -- Two names at one place of the table are the same.
  intro a b ha _ hab hba
  rw [inOrder, decide_eq_true_eq] at hab hba
  exact (List.idxOf_inj (h.subset (hperm.subset ha))).1 (Nat.le_antisymm hab hba)

end SummaryTable

/-! ## The run -/

namespace ReferenceRun

/-- How the parts of a run fit a summary.  The diagnostics list the parameters
of the summary, every chain has a part of them, and the other part was left
out. -/
structure Aligned (summary : SummaryTable) (r : ReferenceRun) : Prop where
  /-- The parameters are the names of the table but for those of log densities. -/
  names : r.diagnostics.parameterNames =
    summary.keys.filter fun n => ¬ "lp__".toList <+: n.toList
  nodup : r.diagnostics.parameterNames.Nodup
  omitted : r.omitted.Sublist r.diagnostics.parameterNames
  keys : ∀ chain ∈ r.chains, chain.keys.Sublist r.diagnostics.parameterNames
  disjoint : ∀ chain ∈ r.chains, chain.keys.Disjoint r.omitted
  /-- In table order both parts make up the parameters. -/
  merge : ∀ chain ∈ r.chains,
    chain.keys.merge r.omitted summary.inOrder = r.diagnostics.parameterNames
  sizes : r.diagnostics.essBulk.length = r.diagnostics.parameterNames.length ∧
    r.diagnostics.essTail.length = r.diagnostics.parameterNames.length ∧
    r.diagnostics.rHat.length = r.diagnostics.parameterNames.length
  /-- Every parameter has a row, and its statistics are those of the row. -/
  rows : ∀ (i : Nat) (n : String), r.diagnostics.parameterNames[i]? = some n →
    ∃ row : SummaryRow, summary.get? n = some row ∧
      r.diagnostics.essBulk[i]? = some row.essBulk ∧
      r.diagnostics.essTail[i]? = some row.essTail ∧ r.diagnostics.rHat[i]? = some row.rHat

/-- Every generated reference fits the summary of its output. -/
theorem aligned_of_generate {name : String} {output : SamplerOutput} {config : RunConfig}
    {options : AssemblyOptions} {r : ReferenceRun}
    (h : (generate name output config options).value = .ok r) :
    ∃ summary, output.summary = .ok summary ∧ r.Aligned summary := by
  obtain ⟨summary, matrix, auxiliary, a, -, hsummary, -, -, hassemble, rfl⟩ := exists_of_generate h
  refine ⟨summary, hsummary, ?_⟩
  have hsublist : summary.parameterNames.Sublist summary.keys := List.filter_sublist
  have hnodup : summary.parameterNames.Nodup := summary.keys_nodup.sublist hsublist
  have hkeys : ∀ chain ∈ a.chains, chain.keys =
      summary.parameterNames.filter fun p => (Assembly.arrayOf? matrix p).isSome :=
    fun chain hchain => Assembly.keys_of_mem_chains hnodup hassemble hchain
  have homitted : a.omitted =
      summary.parameterNames.filter fun p => !(Assembly.arrayOf? matrix p).isSome := by
    obtain ⟨collected, hdescribes, -, -, homitted⟩ := Assembly.exists_collected hassemble
    rw [homitted, hdescribes.omitted]
    simp only [Option.not_isSome]
  constructor
  case names =>
    show summary.parameterNames = _
    apply List.filter_congr
    intro n _
    rw [Bool.eq_iff_iff, Bool.not_eq_true', Bool.eq_false_iff, decide_eq_true_eq, ne_eq,
      SummaryTable.isLogDensity, SummaryTable.logDensityMark, List.isPrefixOf_iff_prefix]
  case nodup => exact hnodup
  case omitted =>
    show a.omitted.Sublist summary.parameterNames
    rw [homitted]
    exact List.filter_sublist
  case keys =>
    intro chain hchain
    show chain.keys.Sublist summary.parameterNames
    rw [hkeys chain hchain]
    exact List.filter_sublist
  case disjoint =>
    intro chain hchain n hn hn'
    rw [hkeys chain hchain, List.mem_filter] at hn
    have hn' : n ∈ a.omitted := hn'
    rw [homitted, List.mem_filter, hn.2] at hn'
    cases hn'.2
  case merge =>
    intro chain hchain
    show chain.keys.merge a.omitted summary.inOrder = summary.parameterNames
    rw [hkeys chain hchain, homitted]
    exact SummaryTable.merge_filter_not hsublist _
  case sizes =>
    simp only [DiagnosticsRecord.aggregate, List.length_map, and_self]
  case rows =>
    intro i n hn
    have hmem : n ∈ summary.keys := hsublist.subset (List.mem_of_getElem? hn)
    obtain ⟨row, hrow⟩ := OrderedMap.exists_get?_of_mem_keys hmem
    exact ⟨row, hrow, DiagnosticsRecord.getElem?_aggregate hn hrow⟩

/-- A summary with a log density and with a parameter that has no draws. -/
def reportedSummary : SummaryTable :=
  .ofList [("lp__", { essBulk := ⟨1⟩ }), ("theta", { essBulk := ⟨2⟩, essTail := ⟨3⟩ }),
    ("sigma", {}), ("beta[2]", { rHat := .nan })]

/-- Draws for the other parameters, in two chains of two. -/
def reportedOutput : SamplerOutput :=
  .ofParts reportedSummary
    (.ofList [("beta", pairedDraws), ("theta", .scalar [⟨1⟩, ⟨2⟩, ⟨3⟩, ⟨4⟩])]) ["divergent__"]

/-- What is left out of the chains keeps its place in the diagnostics. -/
theorem aligned_of_generate_reported :
    ∃ r, (generate "toy" reportedOutput { chains := 2, drawsPerChain := 2 } {}).value = .ok r ∧
      r.Aligned reportedSummary ∧ r.omitted = ["sigma"] ∧
      r.chains.map OrderedMap.keys = [["theta", "beta[2]"], ["theta", "beta[2]"]] ∧
      r.diagnostics.parameterNames = ["theta", "sigma", "beta[2]"] ∧
      r.diagnostics.essBulk = [⟨2⟩, .zero, .zero] := by
  obtain ⟨r, hr⟩ : ∃ r,
      (generate "toy" reportedOutput { chains := 2, drawsPerChain := 2 } {}).value = .ok r :=
    ⟨_, rfl⟩
  obtain ⟨summary, hsummary, haligned⟩ := aligned_of_generate hr
  cases hsummary
  refine ⟨r, hr, haligned, ?_⟩
  cases hr
  decide +kernel

end ReferenceRun

end ReferenceDraws
