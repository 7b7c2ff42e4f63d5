import ReferenceDraws.Proofs.Draws.Assembly
import ReferenceDraws.Proofs.Draws.DrawArray

/-!
# The elements of a vector variable

The rows of a vector variable can be asked for whole or element by element,
and an array of them can be made of the rows or of a buffer.  Both ways lead
to the same numbers.

* Across lists.  `across` collects what stands at one place of every list.
  The places of rows are columns, and the places of the columns are the rows
  again (`map_across_columns`).
* Chains.  Whole rows and elements are taken from the same place
  (`split_rows`, `split_element`).  So one is refused where the other is, and
  the elements put side by side are the rows (`elements_reconstruct_rows`).
-/

namespace ReferenceDraws

/-! ## Across lists -/

/-- What stands at one place of every list. -/
def across (lists : List (List Double)) (place : Nat) : List Double :=
  lists.filterMap (·[place]?)

/-- The columns of rows of a width. -/
def columns (rows : List (List Double)) (dim : Nat) : List (List Double) :=
  (List.range dim).map (across rows)

section Across

variable {rows : List (List Double)} {dim j : Nat} (hrows : ∀ row ∈ rows, row.length = dim)

include hrows

theorem length_across (hj : j < dim) : (across rows j).length = rows.length :=
  (ChainLayout.filterMap_getElem? (fun row hrow => by rwa [hrows row hrow]) 0).2

/-- An entry of a column is the entry of a row. -/
theorem getElem?_across (hj : j < dim) (k : Nat) :
    (across rows j)[k]? = rows[k]?.bind (·[j]?) :=
  (ChainLayout.filterMap_getElem? (fun row hrow => by rwa [hrows row hrow]) k).1

/-- The columns of rows, read across, are the rows. -/
theorem map_across_columns : (List.range rows.length).map (across (columns rows dim)) = rows := by
  have hcolumns : ∀ column ∈ columns rows dim, column.length = rows.length := by
    intro column hcolumn
    obtain ⟨j, hj, rfl⟩ := List.mem_map.1 hcolumn
    exact length_across hrows (List.mem_range.1 hj)
  apply List.ext_getElem
  · simp
  intro k _ hk
  rw [List.getElem_map, List.getElem_range]
  apply List.ext_getElem?
  intro j
  rw [getElem?_across hcolumns hk, columns, List.getElem?_map]
  by_cases hj : j < dim
  · rw [List.getElem?_range hj, Option.map_some, Option.bind_some, getElem?_across hrows hj,
      List.getElem?_eq_getElem hk, Option.bind_some]
  · have hlength : rows[k].length = dim := hrows _ (List.getElem_mem hk)
    rw [List.getElem?_eq_none (by simpa using hj), List.getElem?_eq_none (by omega)]
    rfl

end Across

namespace ChainLayout

/-! ## Chains -/

variable {a : DrawArray} {dim : Nat} {chain chains drawsPerChain i : UInt64}

/-- Whole rows are the rows at the place of the chain. -/
theorem split_rows (hdim : a.dim = some dim) :
    split a chain chains drawsPerChain none =
      (bounds a.totalDraws chain chains drawsPerChain).map fun span => .rows (rowsOf a span) := by
  unfold split
  cases bounds a.totalDraws chain chains drawsPerChain with
  | error fault => rfl
  | ok span =>
    simp only [hdim]
    rfl

/-- An element is taken across the rows at the place of the chain. -/
theorem split_element (hdim : a.dim = some dim) (hlow : 1 ≤ i.toNat) (hhigh : i.toNat ≤ dim) :
    split a chain chains drawsPerChain (some i) =
      (bounds a.totalDraws chain chains drawsPerChain).map fun span =>
        .scalar (across (rowsOf a span) (i.toNat - 1)) := by
  have hin : ¬ (i = 0 ∨ dim < i.toNat) := by
    rw [← UInt64.toNat_inj]
    show ¬ (i.toNat = 0 ∨ dim < i.toNat)
    omega
  unfold split
  cases bounds a.totalDraws chain chains drawsPerChain with
  | error fault => rfl
  | ok span =>
    simp only [ok_bind, hdim, if_neg hin]
    rfl

/-- The rows of a chain: as many as it has draws, and as wide as the array. -/
theorem shape_rowsOf (hdim : a.dim = some dim) {span : Span}
    (h : bounds a.totalDraws chain chains drawsPerChain = .ok span) :
    (rowsOf a span).length = drawsPerChain.toNat ∧
      ∀ row ∈ rowsOf a span, row.length = dim := by
  have hstop := stop_le_totalDraws h
  obtain ⟨-, -, hspan⟩ := bounds_eq_ok_iff.1 h
  constructor
  · rw [length_rowsOf, hspan]
    show chain.toNat * drawsPerChain.toNat + drawsPerChain.toNat -
      chain.toNat * drawsPerChain.toNat = drawsPerChain.toNat
    omega
  · intro row hrow
    rw [length_of_mem_rowsOf hstop hrow, DrawArray.width_of_some hdim]

/-- An element of a chain is refused where its whole rows are, and for the same
reason. -/
theorem split_element_eq_error_iff (hdim : a.dim = some dim) (hlow : 1 ≤ i.toNat)
    (hhigh : i.toNat ≤ dim) {fault : ShapeFault} :
    split a chain chains drawsPerChain (some i) = .error fault ↔
      split a chain chains drawsPerChain none = .error fault := by
  rw [split_rows hdim, split_element hdim hlow hhigh, map_eq_error_iff, map_eq_error_iff]

theorem exists_split_element_iff (hdim : a.dim = some dim) (hlow : 1 ≤ i.toNat)
    (hhigh : i.toNat ≤ dim) :
    (∃ s, split a chain chains drawsPerChain (some i) = .ok s) ↔
      ∃ s, split a chain chains drawsPerChain none = .ok s := by
  rw [split_rows hdim, split_element hdim hlow hhigh]
  simp only [map_eq_ok_iff]
  constructor
  · intro h
    obtain ⟨-, span, hspan, -⟩ := h
    exact ⟨_, span, hspan, rfl⟩
  · intro h
    obtain ⟨-, span, hspan, -⟩ := h
    exact ⟨_, span, hspan, rfl⟩

/-- An element of the rows at the place of a chain is a column of them. -/
theorem split_element_of_bounds (hdim : a.dim = some dim) {span : Span}
    (h : bounds a.totalDraws chain chains drawsPerChain = .ok span) (hlow : 1 ≤ i.toNat)
    (hhigh : i.toNat ≤ dim) :
    ∃ values, (columns (rowsOf a span) dim)[i.toNat - 1]? = some values ∧
      split a chain chains drawsPerChain (some i) = .ok (.scalar values) ∧
      values.length = drawsPerChain.toNat ∧
      ∀ k : Nat, values[k]? = (rowsOf a span)[k]?.bind (·[i.toNat - 1]?) := by
  obtain ⟨hlength, hwidth⟩ := shape_rowsOf hdim h
  have hj : i.toNat - 1 < dim := by omega
  refine ⟨across (rowsOf a span) (i.toNat - 1), ?_, ?_, ?_, ?_⟩
  · rw [columns, List.getElem?_map, List.getElem?_range hj, Option.map_some]
  · rw [split_element hdim hlow hhigh, h]
    rfl
  · rw [length_across hwidth hj, hlength]
  · exact getElem?_across hwidth hj

/-- Rows of one width and the buffer in which they stand one after another make
the same array, whose rows they are.  Whichever way an array of rows was made,
an element of a chain is refused where its whole rows are, and for the same
reason.  It is the element of every row, and all elements side by side are the
rows. -/
theorem elements_reconstruct_rows :
    (∀ (rows : List (List Double)) (dim : Nat), rows ≠ [] → 1 ≤ dim →
      (∀ row ∈ rows, row.length = dim) →
        ∃ a, DrawArray.ofRows rows = .ok a ∧ DrawArray.ofRowMajor rows.flatten dim = .ok a ∧
          ∀ r row, rows[r]? = some row → a.row r = row) ∧
    ∀ (a : DrawArray) (dim : Nat) (chain chains drawsPerChain : UInt64), a.dim = some dim →
      (∀ i : UInt64, 1 ≤ i.toNat → i.toNat ≤ dim →
        ((∃ s, split a chain chains drawsPerChain (some i) = .ok s) ↔
          ∃ s, split a chain chains drawsPerChain none = .ok s) ∧
        ∀ fault, split a chain chains drawsPerChain (some i) = .error fault ↔
          split a chain chains drawsPerChain none = .error fault) ∧
      ∀ s, split a chain chains drawsPerChain none = .ok s →
        ∃ (rs : List (List Double)) (elements : List (List Double)),
          s = .rows rs ∧ rs.length = drawsPerChain.toNat ∧ (∀ row ∈ rs, row.length = dim) ∧
          elements.length = dim ∧
          (∀ i : UInt64, 1 ≤ i.toNat → i.toNat ≤ dim → ∃ values,
            elements[i.toNat - 1]? = some values ∧
              split a chain chains drawsPerChain (some i) = .ok (.scalar values) ∧
              values.length = drawsPerChain.toNat ∧
              ∀ k : Nat, values[k]? = rs[k]?.bind (·[i.toNat - 1]?)) ∧
          (List.range drawsPerChain.toNat).map (across elements) = rs := by
  constructor
  · intro rows dim hne hdim hrows
    obtain ⟨a, ha⟩ := DrawArray.exists_isOfRows hrows
    refine ⟨a, ?_, (DrawArray.ofRowMajor_flatten_eq_ok_iff hdim hrows).2 ha, ?_⟩
    · rw [DrawArray.ofRows_eq_ok_iff, ha.widthOf_eq hne]
      exact ha
    · intro r row hr
      exact ha.row_eq hr
  · intro a dim chain chains drawsPerChain hdim
    constructor
    · intro i hlow hhigh
      refine ⟨exists_split_element_iff hdim hlow hhigh, ?_⟩
      intro fault
      exact split_element_eq_error_iff hdim hlow hhigh
    · intro s hs
      rw [split_rows hdim, map_eq_ok_iff] at hs
      obtain ⟨span, hspan, rfl⟩ := hs
      obtain ⟨hlength, hwidth⟩ := shape_rowsOf hdim hspan
      refine ⟨rowsOf a span, columns (rowsOf a span) dim, rfl, hlength, hwidth, ?_, ?_, ?_⟩
      · rw [columns, List.length_map, List.length_range]
      · intro i hlow hhigh
        exact split_element_of_bounds hdim hspan hlow hhigh
      · rw [← hlength]
        exact map_across_columns hwidth

/-- Two rows in both forms, and the second of two chains of two draws. -/
theorem elements_reconstruct_rows_paired :
    (∃ a, DrawArray.ofRows [[⟨1⟩, ⟨2⟩], [⟨3⟩, .nan]] = .ok a ∧
      DrawArray.ofRowMajor [⟨1⟩, ⟨2⟩, ⟨3⟩, .nan] 2 = .ok a ∧ a.row 1 = [⟨3⟩, .nan]) ∧
    ∃ elements : List (List Double),
      split pairedDraws 1 2 2 none = .ok (.rows [[⟨5⟩, ⟨6⟩], [⟨7⟩, .infinity true]]) ∧
        elements[1]? = some [⟨6⟩, .infinity true] ∧
        split pairedDraws 1 2 2 (some 2) = .ok (.scalar [⟨6⟩, .infinity true]) ∧
        (List.range 2).map (across elements) = [[⟨5⟩, ⟨6⟩], [⟨7⟩, .infinity true]] := by
  obtain ⟨hmakes, hsplits⟩ := elements_reconstruct_rows
  constructor
  · obtain ⟨a, hrows, hbuffer, hget⟩ :=
      hmakes [[⟨1⟩, ⟨2⟩], [⟨3⟩, .nan]] 2 (by simp) (by decide) (by simp)
    exact ⟨a, hrows, hbuffer, hget 1 _ rfl⟩
  · have hsplit : split pairedDraws 1 2 2 none =
        .ok (.rows [[⟨5⟩, ⟨6⟩], [⟨7⟩, .infinity true]]) := by decide
    obtain ⟨-, hwhole⟩ := hsplits pairedDraws 2 1 2 2 rfl
    obtain ⟨rs, elements, hrs, -, -, -, helements, hacross⟩ := hwhole _ hsplit
    cases hrs
    obtain ⟨values, hvalues, hsecond, -, -⟩ := helements 2 (by decide) (by decide)
    have hlist : values = [⟨6⟩, .infinity true] := by
      have hdecided : split pairedDraws 1 2 2 (some 2) =
          .ok (.scalar [⟨6⟩, .infinity true]) := by decide
      cases hsecond.symm.trans hdecided
      rfl
    rw [hlist] at hvalues hsecond
    exact ⟨elements, hsplit, hvalues, hsecond, hacross⟩

end ChainLayout

end ReferenceDraws
