import ReferenceDraws.Proofs.Draws.DrawMatrix
import ReferenceDraws.Proofs.Draws.Faults

/-!
# Every access in range

A buffer is read at positions that are computed from counts.  A position may
lie outside of the buffer, and a count may exceed the words in which it is
kept.  None of this happens to an array of draws, because its numbers fill its
rows.

* Checked steps.  `Checked` has the reading of a chain and of a whole array
  step by step.  Each step says why it cannot be taken, as a `Halt`.
* Arrays.  `Obtained` are the arrays there can be.  Each way of making one has
  its rows fill the buffer (`Obtained.fills`), and `IsCountable` says that sizes
  are words.
* Reading.  `Checked.row_eq` has every row of an array in range, and no others
  are where rows are not empty (`Checked.exists_row_iff`).  A chain is read
  without a halt, unless draws of another shape are asked for
  (`Checked.bounds_eq`, `Checked.split_eq`).
-/

namespace ReferenceDraws

/-- Why a step cannot be taken. -/
inductive Halt where
  /-- A number exceeds the words, or falls below zero. -/
  | overflow
  /-- A position is outside of the buffer. -/
  | outOfRange
  /-- Nothing can be divided by zero. -/
  | zeroDivisor
  /-- The draws do not have the shape that is asked for. -/
  | refused (fault : ShapeFault)
deriving DecidableEq

namespace Checked

open ChainLayout (Span Divides)

/-! ## Checked steps -/

/-- A sum of words. -/
def sum (m n : Nat) : Except Halt Nat := if m + n ≤ maxWord then .ok (m + n) else .error .overflow

/-- A product of words. -/
def product (m n : Nat) : Except Halt Nat :=
  if m * n ≤ maxWord then .ok (m * n) else .error .overflow

/-- A difference of words. -/
def difference (m n : Nat) : Except Halt Nat := if n ≤ m then .ok (m - n) else .error .overflow

/-- What is left of a word after division. -/
def remainder (m n : Nat) : Except Halt Nat := if n = 0 then .error .zeroDivisor else .ok (m % n)

/-- A number of a list. -/
def item (values : List Double) (place : Nat) : Except Halt Double :=
  match values[place]? with
  | some x => .ok x
  | none => .error .outOfRange

/-- The part of a buffer from one position up to another. -/
def part (values : Array Double) (start stop : Nat) : Except Halt (List Double) :=
  if start ≤ stop ∧ stop ≤ values.size then .ok (values.extract start stop).toList
  else .error .outOfRange

/-- A row of an array. -/
def row (a : DrawArray) (r : Nat) : Except Halt (List Double) :=
  match a.dim with
  | some dim => do
    let start ← product r dim
    let next ← sum r 1
    let stop ← product next dim
    part a.values start stop
  | none => (item a.values.toList r).map fun x => [x]

/-- Whether draws divide into blocks of all chains.  A block that exceeds the
words counts as an empty one. -/
def divides (totalDraws : Nat) (chains drawsPerChain : UInt64) : Except Halt Bool :=
  let expected := (product chains.toNat drawsPerChain.toNat).toOption.getD 0
  if expected = 0 ∨ totalDraws = 0 then .ok false
  else (remainder totalDraws expected).map fun rest => decide (rest = 0)

/-- The place of a chain. -/
def bounds (totalDraws : Nat) (chain chains drawsPerChain : UInt64) : Except Halt Span := do
  if !(← divides totalDraws chains drawsPerChain) then
    throw (.refused (.layout totalDraws chains drawsPerChain))
  else if chains ≤ chain then throw (.refused (.noChain chain chains))
  else
    let start ← product chain.toNat drawsPerChain.toNat
    let stop ← sum start drawsPerChain.toNat
    pure ⟨start, stop⟩

/-- The rows at a place. -/
def places (span : Span) : List Nat := List.range' span.start (span.stop - span.start)

/-- The draws of a chain. -/
def split (a : DrawArray) (chain chains drawsPerChain : UInt64) (index : Option UInt64) :
    Except Halt Series := do
  let span ← bounds a.totalDraws chain chains drawsPerChain
  match a.dim, index with
  | none, none => (part a.values span.start span.stop).map .scalar
  | none, some index => throw (.refused (.indexOnScalar index))
  | some dim, some index =>
    if index = 0 ∨ dim < index.toNat then throw (.refused (.indexBounds index dim))
    else
      let column ← difference index.toNat 1
      ((places span).mapM fun r => row a r >>= fun values => item values column).map .scalar
  | some _, none => ((places span).mapM (row a)).map .rows

/-- The whole array as a series, as it is written. -/
def series (a : DrawArray) : Except Halt Series :=
  match a.dim with
  | none => .ok (.scalar a.values.toList)
  | some _ => ((List.range a.totalDraws).mapM (row a)).map .rows

end Checked

/-! ## Arrays -/

namespace DrawArray

/-- The arrays there can be.  They are numbers, rows, a buffer of rows, or read
from a document. -/
inductive Obtained : DrawArray → Prop
  | scalar (values : List Double) : Obtained (.scalar values)
  | ofRows {rows : List (List Double)} {a : DrawArray} (h : ofRows rows = .ok a) : Obtained a
  | ofRowMajor {values : List Double} {dim : Nat} {a : DrawArray}
    (h : ofRowMajor values dim = .ok a) : Obtained a
  | decode {depth : Nat} {r : Json.Reading} {a : DrawArray} (h : decode depth r = .ok a) :
    Obtained a

/-- The size of a buffer and the number of its rows are words, as they are of
everything that is held in memory. -/
structure IsCountable (a : DrawArray) : Prop where
  size_le : a.values.size ≤ maxWord
  totalDraws_le : a.totalDraws ≤ maxWord

/-- A buffer has as many rows as the array, and all are as wide. -/
def Fills (a : DrawArray) : Prop :=
  (a.dim = none → a.values.size = a.totalDraws) ∧
    ∀ dim, a.dim = some dim → a.values.size = a.totalDraws * dim

theorem fills_scalar (values : List Double) : (scalar values).Fills := by
  constructor
  · intro _
    simp [scalar]
  · intro dim hdim
    cases hdim

/-- Rows of one width fill the buffer, also if there are none or their width is
zero. -/
theorem IsOfRows.fills {a : DrawArray} {rows : List (List Double)} {dim : Nat}
    (h : a.IsOfRows rows dim) : a.Fills := by
  have hnone : firstRagged dim 0 rows = none := firstRagged_eq_none_iff.2 h.length_eq
  constructor
  · intro hdim
    cases h.dim_eq.symm.trans hdim
  · intro width hdim
    cases h.dim_eq.symm.trans hdim
    rw [← Array.length_toList, h.values_eq, length_flatten_of_firstRagged hnone, h.totalDraws_eq]

/-- A buffer that divides into rows is filled by them, also if it is empty. -/
theorem fills_of_ofRowMajor {values : List Double} {dim : Nat} {a : DrawArray}
    (h : ofRowMajor values dim = .ok a) : a.Fills := by
  unfold ofRowMajor at h
  split at h
  · cases h
  · rename_i heven
    cases h
    have hmod : values.length % dim = 0 := by omega
    constructor
    · intro hdim
      cases hdim
    · intro width hdim
      cases hdim
      show values.toArray.size = values.length / dim * dim
      rw [List.size_toArray, Nat.div_mul_cancel (Nat.dvd_of_mod_eq_zero hmod)]

/-- Every array there can be is filled by its rows. -/
theorem Obtained.fills {a : DrawArray} (h : Obtained a) : a.Fills := by
  cases h with
  | scalar values => exact fills_scalar values
  | ofRows h => exact (ofRows_eq_ok_iff.1 h).fills
  | ofRowMajor h => exact fills_of_ofRowMajor h
  | decode h =>
    obtain ⟨draws, -, hread⟩ := bind_eq_ok_iff.1 h
    split at hread
    · rename_i b hdraws
      cases hread
      cases draws with
      | scalar values =>
        cases hdraws
        exact fills_scalar values
      | rows rs => exact (ofRows_eq_ok_iff.1 hdraws).fills
    · cases hread

end DrawArray

/-! ## Reading -/

namespace Checked

open ChainLayout (Span Divides)

/-- A part inside of the buffer. -/
theorem part_eq {a : DrawArray} {start stop : Nat} (hstart : start ≤ stop)
    (hstop : stop ≤ a.values.size) : part a.values start stop = .ok (a.slice start stop) :=
  if_pos ⟨hstart, hstop⟩

/-- Every row of an array is in range. -/
theorem row_eq {a : DrawArray} (ha : a.IsCountable) {r : Nat} (hr : r < a.totalDraws) :
    row a r = .ok (a.row r) := by
  have hsize := ha.size_le
  have htotal := ha.totalDraws_le
  have hstop : (r + 1) * a.width ≤ a.values.size := DrawArray.row_stop_le hr
  have hstep : (r + 1) * a.width = r * a.width + a.width := Nat.succ_mul r a.width
  unfold row
  cases hdim : a.dim with
  | none =>
    have hwidth : a.width = 1 := DrawArray.width_of_none hdim
    have hlength : (a.row r).length = 1 := by rw [DrawArray.length_row hr, hwidth]
    obtain ⟨x, hx⟩ := List.length_eq_one_iff.1 hlength
    have hget : a.values.toList[r]? = some x := by
      have h := DrawArray.getElem?_row (a := a) (j := 0) hr (by omega)
      rw [hx, DrawArray.number?, if_pos ⟨hr, by omega⟩, hwidth, Nat.mul_one] at h
      simpa using h.symm
    rw [hx]
    simp only [item, hget]
    rfl
  | some dim =>
    have hwidth : a.width = dim := DrawArray.width_of_some hdim
    rw [hwidth] at hstop hstep
    have hstart : product r dim = .ok (r * dim) := if_pos (by omega)
    have hnext : sum r 1 = .ok (r + 1) := if_pos (by omega)
    have hlast : product (r + 1) dim = .ok ((r + 1) * dim) := if_pos (by omega)
    have hpart := @part_eq a (r * dim) ((r + 1) * dim) (by omega) hstop
    simp only [hstart, hnext, hlast, ok_bind, hpart]
    rw [DrawArray.row, hdim, Option.getD_some]

/-- Where rows are not empty, there are no others in range. -/
theorem exists_row_iff {a : DrawArray} (ha : a.IsCountable) (hwidth : 0 < a.width) {r : Nat} :
    (∃ values, row a r = .ok values) ↔ r < a.totalDraws := by
  constructor
  · intro h
    obtain ⟨values, hvalues⟩ := h
    unfold row at hvalues
    cases hdim : a.dim with
    | none =>
      simp only [hdim] at hvalues
      obtain ⟨x, hx, -⟩ := map_eq_ok_iff.1 hvalues
      have hlt : r < a.values.toList.length := by
        by_contra hge
        rw [item, List.getElem?_eq_none (Nat.not_lt.1 hge)] at hx
        cases hx
      rwa [Array.length_toList, DrawArray.size_of_none hdim] at hlt
    | some dim =>
      simp only [hdim] at hvalues
      obtain ⟨start, -, hvalues⟩ := bind_eq_ok_iff.1 hvalues
      obtain ⟨next, hnext, hvalues⟩ := bind_eq_ok_iff.1 hvalues
      obtain ⟨stop, hstop, hpart⟩ := bind_eq_ok_iff.1 hvalues
      obtain ⟨-, rfl⟩ := ite_ok_eq_ok_iff.1 hnext
      obtain ⟨-, rfl⟩ := ite_ok_eq_ok_iff.1 hstop
      obtain ⟨⟨-, hle⟩, -⟩ := ite_ok_eq_ok_iff.1 hpart
      rw [a.size_values, DrawArray.width_of_some hdim] at hle
      rw [DrawArray.width_of_some hdim] at hwidth
      exact Nat.le_of_mul_le_mul_right hle hwidth
  · intro hr
    exact ⟨_, row_eq ha hr⟩

/-- Whether draws divide into blocks is found out without a halt. -/
theorem divides_eq (totalDraws : Nat) (chains drawsPerChain : UInt64) :
    divides totalDraws chains drawsPerChain =
      .ok (decide (Divides chains drawsPerChain totalDraws)) := by
  unfold divides
  by_cases hword : chains.toNat * drawsPerChain.toNat ≤ maxWord
  · have hexpected : (product chains.toNat drawsPerChain.toNat).toOption.getD 0 =
        chains.toNat * drawsPerChain.toNat := by
      rw [product, if_pos hword]
      rfl
    simp only [hexpected]
    split
    · rename_i hempty
      have hno : ¬ Divides chains drawsPerChain totalDraws := fun h => by
        obtain ⟨hblock, -, htotal, -⟩ := h
        omega
      rw [decide_eq_false hno]
    · rename_i hsome
      have hblock : chains.toNat * drawsPerChain.toNat ≠ 0 := fun h => hsome (.inl h)
      have hiff : totalDraws % (chains.toNat * drawsPerChain.toNat) = 0 ↔
          Divides chains drawsPerChain totalDraws := by
        rw [← Nat.dvd_iff_mod_eq_zero]
        constructor
        · exact fun h => ⟨hblock, hword, fun htotal => hsome (.inr htotal), h⟩
        · exact fun h => h.2.2.2
      rw [remainder, if_neg hblock]
      show Except.ok (decide (totalDraws % (chains.toNat * drawsPerChain.toNat) = 0)) = _
      rw [decide_eq_decide.2 hiff]
  · have hexpected : (product chains.toNat drawsPerChain.toNat).toOption.getD 0 = 0 := by
      rw [product, if_neg hword]
      rfl
    have hno : ¬ Divides chains drawsPerChain totalDraws := fun h => hword h.2.1
    simp only [hexpected, true_or, if_true]
    rw [decide_eq_false hno]

/-- The place of a chain is computed without a halt. -/
theorem bounds_eq (totalDraws : Nat) (chain chains drawsPerChain : UInt64) :
    bounds totalDraws chain chains drawsPerChain =
      (ChainLayout.bounds totalDraws chain chains drawsPerChain).mapError .refused := by
  unfold bounds
  rw [divides_eq, ok_bind]
  by_cases hdivides : Divides chains drawsPerChain totalDraws
  · have hword : chains.toNat * drawsPerChain.toNat ≤ maxWord := hdivides.2.1
    rw [decide_eq_true hdivides]
    by_cases hchain : chain < chains
    · have hlast : (chain.toNat + 1) * drawsPerChain.toNat ≤
          chains.toNat * drawsPerChain.toNat :=
        Nat.mul_le_mul_right _ (UInt64.lt_iff_toNat_lt.1 hchain)
      rw [Nat.succ_mul] at hlast
      have hstart : product chain.toNat drawsPerChain.toNat =
          .ok (chain.toNat * drawsPerChain.toNat) := if_pos (by omega)
      have hstop : sum (chain.toNat * drawsPerChain.toNat) drawsPerChain.toNat =
          .ok (chain.toNat * drawsPerChain.toNat + drawsPerChain.toNat) := if_pos (by omega)
      rw [ChainLayout.bounds_eq_ok_iff.2 ⟨ChainLayout.divides_iff.1 hdivides, hchain, rfl⟩,
        mapError_ok, Bool.not_true, if_neg Bool.false_ne_true, if_neg (UInt64.not_le.2 hchain),
        hstart, ok_bind, hstop, ok_bind]
      rfl
    · rw [ChainLayout.bounds_of_le hdivides (UInt64.not_lt.1 hchain), Bool.not_true,
        if_neg Bool.false_ne_true, if_pos (UInt64.not_lt.1 hchain)]
      rfl
  · rw [ChainLayout.bounds_of_not_divides hdivides, decide_eq_false hdivides]
    rfl

/-- The rows at a place inside of an array are in range. -/
theorem mapM_row_eq {a : DrawArray} (ha : a.IsCountable) {span : Span}
    (hstop : span.stop ≤ a.totalDraws) :
    (places span).mapM (row a) = .ok (ChainLayout.rowsOf a span) := by
  refine mapM_eq_map fun r hr => row_eq ha ?_
  have hplace := List.mem_range'_1.1 hr
  omega

/-- A column of these rows is in range as well. -/
theorem mapM_item_eq {a : DrawArray} (ha : a.IsCountable) {span : Span}
    (hstop : span.stop ≤ a.totalDraws) {column : Nat} (hcolumn : column < a.width) :
    ((places span).mapM fun r => row a r >>= fun values => item values column) =
      .ok (ChainLayout.columnOf a span column) := by
  rw [ChainLayout.columnOf, ChainLayout.rowsOf, List.filterMap_map]
  refine mapM_eq_filterMap fun r hr => ?_
  have hplace := List.mem_range'_1.1 hr
  have hr : r < a.totalDraws := by omega
  have hlength : column < (a.row r).length := by rwa [DrawArray.length_row hr]
  have hget := List.getElem?_eq_getElem hlength
  refine ⟨(a.row r)[column], ?_, hget⟩
  rw [row_eq ha hr, ok_bind, item, hget]

/-- A chain is read without a halt. -/
theorem split_eq {a : DrawArray} (ha : a.IsCountable) (chain chains drawsPerChain : UInt64)
    (index : Option UInt64) :
    split a chain chains drawsPerChain index =
      (ChainLayout.split a chain chains drawsPerChain index).mapError .refused := by
  unfold split ChainLayout.split
  rw [bounds_eq]
  cases hbounds : ChainLayout.bounds a.totalDraws chain chains drawsPerChain with
  | error fault => rfl
  | ok span =>
    have hstop : span.stop ≤ a.totalDraws := ChainLayout.stop_le_totalDraws hbounds
    rw [mapError_ok, ok_bind, ok_bind]
    cases hdim : a.dim with
    | none =>
      cases index with
      | none =>
        have hpart := part_eq (ChainLayout.start_le_stop hbounds)
          (hstop.trans_eq (DrawArray.size_of_none hdim).symm)
        simp only [hpart]
        rfl
      | some i => rfl
    | some dim =>
      cases index with
      | none =>
        simp only [mapM_row_eq ha hstop]
        rfl
      | some i =>
        simp only
        split
        · rfl
        · rename_i hin
          -- The element is not past the last, and it is not the one before the first.
          have hlow : 1 ≤ i.toNat := by
            have hne : i.toNat ≠ 0 := fun h => hin (.inl (UInt64.toNat_inj.1 h))
            omega
          have hcolumn : i.toNat - 1 < a.width := by
            rw [DrawArray.width_of_some hdim]
            omega
          have hdifference : difference i.toNat 1 = .ok (i.toNat - 1) := if_pos hlow
          simp only [hdifference, ok_bind, mapM_item_eq ha hstop hcolumn]
          rfl

/-- The whole array is read without a halt. -/
theorem series_eq {a : DrawArray} (ha : a.IsCountable) : series a = .ok a.series := by
  unfold series DrawArray.series
  cases a.dim with
  | none => rfl
  | some dim =>
    have hrows : (List.range a.totalDraws).mapM (row a) =
        .ok ((List.range a.totalDraws).map a.row) :=
      mapM_eq_map fun r hr => row_eq ha (List.mem_range.1 hr)
    simp only [hrows]
    rfl

end Checked

/-- The numbers of every array there can be fill its rows.  So where sizes are
words, the rows in range are those of the array, and no step of reading a chain
or the whole array halts.  A chain has the draws that the layout gives it, or
draws of another shape were asked for. -/
theorem DrawArray.accesses_in_range {a : DrawArray} (ha : a.Obtained) (hwords : a.IsCountable) :
    a.Fills ∧
    (0 < a.width → ∀ r, (∃ values, Checked.row a r = .ok values) ↔ r < a.totalDraws) ∧
    (∀ chain chains drawsPerChain index,
      (∃ draws, Checked.split a chain chains drawsPerChain index = .ok draws ∧
        ChainLayout.split a chain chains drawsPerChain index = .ok draws) ∨
      ∃ fault, Checked.split a chain chains drawsPerChain index = .error (.refused fault) ∧
        ChainLayout.split a chain chains drawsPerChain index = .error fault ∧
        fault.failure.family = .shapeMismatch) ∧
    (Checked.series a).map Series.toJson = .ok a.toJson := by
  refine ⟨ha.fills, ?_, ?_, ?_⟩
  · intro hwidth r
    exact Checked.exists_row_iff hwords hwidth
  · intro chain chains drawsPerChain index
    rw [Checked.split_eq hwords]
    cases hsplit : ChainLayout.split a chain chains drawsPerChain index with
    | ok draws => exact .inl ⟨draws, rfl, rfl⟩
    | error fault => exact .inr ⟨fault, rfl, rfl, rfl⟩
  · rw [Checked.series_eq hwords]
    rfl

/-- Two draws of an empty vector. -/
def DrawArray.emptyRows : DrawArray := ⟨#[], 2, some 0, rfl⟩

/-- Empty rows are read as such, and none of their elements is. -/
theorem DrawArray.accesses_in_range_emptyRows :
    emptyRows.values.size = emptyRows.totalDraws * 0 ∧
      Checked.split emptyRows 1 2 1 none = .ok (.rows [[]]) ∧
      (∃ fault, Checked.split emptyRows 1 2 1 (some 1) = .error (.refused fault)) ∧
      (Checked.series emptyRows).map Series.toJson = .ok emptyRows.toJson := by
  have hmade : ofRows [[], []] = .ok emptyRows := by decide
  obtain ⟨hfills, -, hsplit, hseries⟩ :=
    accesses_in_range (.ofRows hmade) ⟨by decide, by decide⟩
  have hrows : ChainLayout.split emptyRows 1 2 1 none = .ok (.rows [[]]) := by decide
  have hrefused : ChainLayout.split emptyRows 1 2 1 (some 1) = .error (.indexBounds 1 0) := by
    decide
  refine ⟨hfills.2 0 rfl, ?_, ?_, hseries⟩
  · rcases hsplit 1 2 1 none with ⟨draws, hdraws, hmodel⟩ | ⟨fault, -, hmodel, -⟩
    · cases hmodel.symm.trans hrows
      exact hdraws
    · cases hmodel.symm.trans hrows
  · rcases hsplit 1 2 1 (some 1) with ⟨draws, -, hmodel⟩ | ⟨fault, hfault, -, -⟩
    · cases hmodel.symm.trans hrefused
    · exact ⟨fault, hfault⟩

end ReferenceDraws
