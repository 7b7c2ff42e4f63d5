import ReferenceDraws.Diagnostics.Record

/-!
# What diagnostics list

The statistics of a request stand in lists side by side, and the warnings about
it stand in a log of their own.  Both come from one walk over the request.

* The walk.  `Collects` takes a row for every parameter and warns of those that
  have none.  There is one walk over a request (`Collects.unique`), a request in
  two parts is walked in two parts (`Collects.append`), and no walk looks at
  rows of other parameters (`Collects.congr`).
* The record.  `aggregate_eq_of_collects` reads record and log off the walk, and
  `FitsRequest` says what stands at every position of the record.
-/

namespace ReferenceDraws.DiagnosticsRecord

variable {t u : SummaryTable} {parameters : List String} {rows : List SummaryRow}
  {warnings : List LogEvent} {nchains ndraws : UInt64} {auxiliary : List String}

/-! ## The walk -/

/-- A walk over requested parameters.  A parameter takes its row, or the neutral
row and a warning if it has none. -/
inductive Collects (t : SummaryTable) :
    List String → List SummaryRow → List LogEvent → Prop
  | done : Collects t [] [] []
  | reported {n : String} {row : SummaryRow} {parameters : List String} {rows : List SummaryRow}
      {warnings : List LogEvent} (h : t.get? n = some row)
      (rest : Collects t parameters rows warnings) :
      Collects t (n :: parameters) (row :: rows) warnings
  | missing {n : String} {parameters : List String} {rows : List SummaryRow}
      {warnings : List LogEvent} (h : t.get? n = none)
      (rest : Collects t parameters rows warnings) :
      Collects t (n :: parameters) (.neutral :: rows) (neutralEvent n :: warnings)

/-- Every request is walked. -/
theorem collects (t : SummaryTable) (parameters : List String) :
    Collects t parameters (parameters.map t.rowOrNeutral) (neutralEvents t parameters) := by
  induction parameters with
  | nil => exact .done
  | cons n rest ih =>
    rw [List.map_cons, SummaryTable.rowOrNeutral]
    cases h : t.get? n with
    | some row =>
      have hskip : neutralEvents t (n :: rest) = neutralEvents t rest := by
        rw [neutralEvents, List.filter_cons_of_neg (by simp [h]), neutralEvents]
      rw [hskip]
      exact .reported h ih
    | none =>
      have hwarn : neutralEvents t (n :: rest) = neutralEvent n :: neutralEvents t rest := by
        rw [neutralEvents, List.filter_cons_of_pos (by simp [h]), List.map_cons, neutralEvents]
      rw [hwarn]
      exact .missing h ih

namespace Collects

/-- There is one row for every occurrence of a parameter. -/
theorem length_eq (h : Collects t parameters rows warnings) : rows.length = parameters.length := by
  induction h with
  | done => rfl
  | reported _ _ ih => rw [List.length_cons, List.length_cons, ih]
  | missing _ _ ih => rw [List.length_cons, List.length_cons, ih]

/-- The row at a position is that of the parameter there. -/
theorem exists_getElem? (h : Collects t parameters rows warnings) {i : Nat} {n : String}
    (hn : parameters[i]? = some n) :
    ∃ row, rows[i]? = some row ∧ (t.get? n = some row ∨ t.get? n = none ∧ row = .neutral) := by
  induction h generalizing i with
  | done => cases hn
  | reported hrow _ ih =>
    cases i with
    | zero =>
      cases hn
      exact ⟨_, rfl, .inl hrow⟩
    | succ i => exact ih hn
  | missing hnone _ ih =>
    cases i with
    | zero =>
      cases hn
      exact ⟨_, rfl, .inr ⟨hnone, rfl⟩⟩
    | succ i => exact ih hn

/-- A walk over a request has one outcome. -/
theorem unique {rows' : List SummaryRow} {warnings' : List LogEvent}
    (h : Collects t parameters rows warnings) (h' : Collects t parameters rows' warnings') :
    rows = rows' ∧ warnings = warnings' := by
  induction h generalizing rows' warnings' with
  | done =>
    cases h'
    exact ⟨rfl, rfl⟩
  | reported hrow _ ih =>
    cases h' with
    | reported hrow' rest' =>
      obtain ⟨hrows, hwarnings⟩ := ih rest'
      rw [hrow, Option.some_inj] at hrow'
      rw [hrow', hrows]
      exact ⟨rfl, hwarnings⟩
    | missing hnone' _ =>
      rw [hrow] at hnone'
      cases hnone'
  | missing hnone _ ih =>
    cases h' with
    | reported hrow' _ =>
      rw [hnone] at hrow'
      cases hrow'
    | missing _ rest' =>
      obtain ⟨hrows, hwarnings⟩ := ih rest'
      rw [hrows, hwarnings]
      exact ⟨rfl, rfl⟩

/-- A request in two parts is walked part by part. -/
theorem append {parameters' : List String} {rows' : List SummaryRow} {warnings' : List LogEvent}
    (h : Collects t parameters rows warnings) (h' : Collects t parameters' rows' warnings') :
    Collects t (parameters ++ parameters') (rows ++ rows') (warnings ++ warnings') := by
  induction h with
  | done => exact h'
  | reported hrow _ ih => exact .reported hrow ih
  | missing hnone _ ih => exact .missing hnone ih

/-- A walk sees no more of a table than the rows of the request. -/
theorem congr (h : Collects t parameters rows warnings)
    (hsame : ∀ n ∈ parameters, u.get? n = t.get? n) : Collects u parameters rows warnings := by
  induction h with
  | done => exact .done
  | reported hrow _ ih =>
    rw [List.forall_mem_cons] at hsame
    exact .reported (hsame.1.trans hrow) (ih hsame.2)
  | missing hnone _ ih =>
    rw [List.forall_mem_cons] at hsame
    exact .missing (hsame.1.trans hnone) (ih hsame.2)

end Collects

/-! ## The record -/

/-- A record with the statistics of rows. -/
def ofRows (parameters : List String) (rows : List SummaryRow) (nchains ndraws : UInt64) :
    DiagnosticsRecord where
  parameterNames := parameters
  ndraws := ndraws
  nchains := nchains
  essBulk := rows.map SummaryRow.essBulk
  essTail := rows.map SummaryRow.essTail
  rHat := rows.map SummaryRow.rHat
  divergentTransitions := List.replicate nchains.toNat 0

/-- The statistics of one record, and after them those of another. -/
def append (r s : DiagnosticsRecord) : DiagnosticsRecord :=
  { r with
    parameterNames := r.parameterNames ++ s.parameterNames
    essBulk := r.essBulk ++ s.essBulk
    essTail := r.essTail ++ s.essTail
    rHat := r.rHat ++ s.rHat }

theorem append_ofRows (parameters parameters' : List String) (rows rows' : List SummaryRow)
    (nchains ndraws : UInt64) :
    (ofRows parameters rows nchains ndraws).append (ofRows parameters' rows' nchains ndraws) =
      ofRows (parameters ++ parameters') (rows ++ rows') nchains ndraws := by
  simp only [append, ofRows, List.map_append]

/-- The record holds the rows of the walk.  The log holds its warnings, after
one warning if divergences are flagged. -/
theorem aggregate_eq_of_collects (h : Collects t parameters rows warnings) :
    aggregate parameters t nchains ndraws auxiliary =
      ⟨(if "divergent__" ∈ auxiliary then [divergenceEvent] else []) ++ warnings,
        ofRows parameters rows nchains ndraws⟩ := by
  obtain ⟨hrows, hwarnings⟩ := h.unique (collects t parameters)
  rw [hrows, hwarnings]
  simp only [aggregate, divergences, ofRows, divergenceSignal, List.contains_iff_mem]

/-- The statistics at a position are those of the row of the parameter there. -/
theorem getElem?_aggregate {summary : SummaryTable} {i : Nat} {n : String} {row : SummaryRow}
    (hn : parameters[i]? = some n) (hrow : summary.get? n = some row) :
    (aggregate parameters summary nchains ndraws auxiliary).value.essBulk[i]? =
        some row.essBulk ∧
      (aggregate parameters summary nchains ndraws auxiliary).value.essTail[i]? =
        some row.essTail ∧
      (aggregate parameters summary nchains ndraws auxiliary).value.rHat[i]? = some row.rHat := by
  have hwalk := collects summary parameters
  obtain ⟨row', hget, hrow' | ⟨hnone, -⟩⟩ := hwalk.exists_getElem? hn
  · rw [hrow, Option.some_inj] at hrow'
    rw [aggregate_eq_of_collects hwalk]
    simp only [ofRows, List.getElem?_map, hget, Option.map_some, hrow', and_self]
  · rw [hrow] at hnone
    cases hnone

/-- A record answers a request.  It has one place for every occurrence of a
parameter, and at that place the statistics of the parameter. -/
structure FitsRequest (r : DiagnosticsRecord) (parameters : List String) (t : SummaryTable)
    (nchains ndraws : UInt64) : Prop where
  names : r.parameterNames = parameters
  counts : r.nchains = nchains ∧ r.ndraws = ndraws
  sizes : r.essBulk.length = parameters.length ∧ r.essTail.length = parameters.length ∧
    r.rHat.length = parameters.length
  /-- A parameter with a row has the statistics of the row. -/
  reported : ∀ (i : Nat) (n : String) (row : SummaryRow), parameters[i]? = some n →
    t.get? n = some row →
      r.essBulk[i]? = some row.essBulk ∧ r.essTail[i]? = some row.essTail ∧
        r.rHat[i]? = some row.rHat
  /-- A parameter without one has no samples and is taken to have converged. -/
  missing : ∀ (i : Nat) (n : String), parameters[i]? = some n → t.get? n = none →
    r.essBulk[i]? = some .zero ∧ r.essTail[i]? = some .zero ∧ r.rHat[i]? = some .one
  divergences : r.divergentTransitions = List.replicate nchains.toNat 0

theorem fitsRequest_aggregate (parameters : List String) (t : SummaryTable)
    (nchains ndraws : UInt64) (auxiliary : List String) :
    FitsRequest (aggregate parameters t nchains ndraws auxiliary).value parameters t nchains
      ndraws := by
  have hwalk := collects t parameters
  constructor
  case names => rfl
  case counts => exact ⟨rfl, rfl⟩
  case sizes =>
    rw [aggregate_eq_of_collects hwalk]
    simp only [ofRows, List.length_map, hwalk.length_eq, and_self]
  case reported =>
    intro i n row hn hrow
    exact getElem?_aggregate hn hrow
  case missing =>
    intro i n hn hnone
    obtain ⟨row, hget, hrow | ⟨-, rfl⟩⟩ := hwalk.exists_getElem? hn
    · rw [hnone] at hrow
      cases hrow
    · rw [aggregate_eq_of_collects hwalk]
      simp only [ofRows, List.getElem?_map, hget, Option.map_some, SummaryRow.neutral, and_self]
  case divergences => rfl

/-- The record of a request in two parts is made of the records of the parts. -/
theorem value_aggregate_append (parameters parameters' : List String) (t : SummaryTable)
    (nchains ndraws : UInt64) (auxiliary : List String) :
    (aggregate (parameters ++ parameters') t nchains ndraws auxiliary).value =
      (aggregate parameters t nchains ndraws auxiliary).value.append
        (aggregate parameters' t nchains ndraws auxiliary).value := by
  have hwalk := collects t parameters
  have hwalk' := collects t parameters'
  rw [aggregate_eq_of_collects (hwalk.append hwalk'), aggregate_eq_of_collects hwalk,
    aggregate_eq_of_collects hwalk']
  exact (append_ofRows _ _ _ _ _ _).symm

/-- No record shows the auxiliary variables, nor rows that are not requested. -/
theorem value_aggregate_congr (hsame : ∀ n ∈ parameters, u.get? n = t.get? n)
    (nchains ndraws : UInt64) (auxiliary auxiliary' : List String) :
    (aggregate parameters u nchains ndraws auxiliary').value =
      (aggregate parameters t nchains ndraws auxiliary).value := by
  have hwalk := collects t parameters
  rw [aggregate_eq_of_collects hwalk, aggregate_eq_of_collects (hwalk.congr hsame)]

/-- A summary of two parameters. -/
def pairedSummary : SummaryTable :=
  .ofList [("mu", { essBulk := ⟨1⟩, essTail := ⟨2⟩ }), ("tau", { rHat := .nan })]

end ReferenceDraws.DiagnosticsRecord
