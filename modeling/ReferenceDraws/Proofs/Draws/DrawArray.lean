import ReferenceDraws.Proofs.Draws.ChainLayout

/-!
# The rows of an array

What an array of rows holds, whichever way it came about.

* Rows and the buffer.  `flatten_rows` says that the rows of an array, one
  after another, are its buffer.
* Arrays made of rows.  `IsOfRows` says that an array holds given rows of
  one width, which are then its rows (`IsOfRows.rows_eq`).  `ofRows` makes
  that array of rows of one width and refuses all others
  (`ofRows_eq_ok_iff`).  `ofRowMajor` makes it of a buffer in which the rows
  stand one after another (`ofRowMajor_flatten_eq_ok_iff`).
-/

namespace ReferenceDraws.DrawArray

/-! ## Rows and the buffer -/

/-- The rows of an array. -/
def rows (a : DrawArray) : List (List Double) := (List.range a.totalDraws).map a.row

@[simp] theorem length_rows (a : DrawArray) : a.rows.length = a.totalDraws := by simp [rows]

/-- All rows are as wide as the array. -/
theorem length_of_mem_rows {a : DrawArray} {row : List Double} (h : row ∈ a.rows) :
    row.length = a.width := by
  obtain ⟨r, hr, rfl⟩ := List.mem_map.1 h
  exact length_row (List.mem_range.1 hr)

/-- Two runs of the buffer that meet are one run. -/
theorem slice_append (a : DrawArray) {start middle stop : Nat} (hstart : start ≤ middle)
    (hstop : middle ≤ stop) : a.slice start middle ++ a.slice middle stop = a.slice start stop := by
  rw [slice, slice, slice, ← Array.toList_append, Array.extract_append_extract,
    Nat.min_eq_left hstart, Nat.max_eq_right hstop]

/-- The first rows are the first numbers of the buffer. -/
theorem flatten_take_rows (a : DrawArray) (n : Nat) :
    ((List.range n).map a.row).flatten = a.slice 0 (n * a.width) := by
  induction n with
  | zero => simp [slice]
  | succ n ih =>
    have hstep : n * a.width ≤ (n + 1) * a.width := Nat.mul_le_mul_right _ (Nat.le_succ n)
    calc ((List.range (n + 1)).map a.row).flatten
        = ((List.range n).map a.row).flatten ++ a.row n := by simp [List.range_succ]
      _ = a.slice 0 (n * a.width) ++ a.slice (n * a.width) ((n + 1) * a.width) := by rw [ih]; rfl
      _ = a.slice 0 ((n + 1) * a.width) := a.slice_append (Nat.zero_le _) hstep

/-- The rows one after another are the buffer. -/
theorem flatten_rows (a : DrawArray) : a.rows.flatten = a.values.toList := by
  rw [rows, a.flatten_take_rows, ← a.size_values, slice, Array.extract_size]

/-! ## Arrays made of rows -/

@[ext] theorem ext {a b : DrawArray} (hvalues : a.values.toList = b.values.toList)
    (htotalDraws : a.totalDraws = b.totalDraws) (hdim : a.dim = b.dim) : a = b := by
  cases a
  cases b
  obtain rfl := htotalDraws
  obtain rfl := hdim
  obtain rfl := Array.toList_inj.1 hvalues
  rfl

/-- An array holds rows of one width. -/
structure IsOfRows (a : DrawArray) (rows : List (List Double)) (dim : Nat) : Prop where
  dim_eq : a.dim = some dim
  totalDraws_eq : a.totalDraws = rows.length
  values_eq : a.values.toList = rows.flatten
  length_eq : ∀ row ∈ rows, row.length = dim

/-- Rows of a width make one array. -/
theorem IsOfRows.unique {a b : DrawArray} {rows : List (List Double)} {dim : Nat}
    (ha : a.IsOfRows rows dim) (hb : b.IsOfRows rows dim) : a = b :=
  ext (ha.values_eq.trans hb.values_eq.symm) (ha.totalDraws_eq.trans hb.totalDraws_eq.symm)
    (ha.dim_eq.trans hb.dim_eq.symm)

theorem firstRagged_eq_none_iff {dim start : Nat} {rows : List (List Double)} :
    firstRagged dim start rows = none ↔ ∀ row ∈ rows, row.length = dim := by
  induction rows generalizing start with
  | nil => simp [firstRagged]
  | cons row rest ih =>
    rw [firstRagged, List.forall_mem_cons]
    split
    · rename_i hrow
      rw [ih]
      exact (and_iff_right hrow).symm
    · rename_i hrow
      exact iff_of_false (by simp) fun h => hrow h.1

/-- Rows of one width make an array. -/
theorem exists_isOfRows {rows : List (List Double)} {dim : Nat}
    (h : ∀ row ∈ rows, row.length = dim) : ∃ a : DrawArray, a.IsOfRows rows dim := by
  have hnone : firstRagged dim 0 rows = none := firstRagged_eq_none_iff.2 h
  have hlength := length_flatten_of_firstRagged hnone
  exact ⟨⟨rows.flatten.toArray, rows.length, some dim, by simpa using hlength⟩,
    rfl, rfl, by simp, h⟩

/-- Rows make an array exactly where they are as wide as the first, and the
array holds them. -/
theorem ofRows_eq_ok_iff {rows : List (List Double)} {a : DrawArray} :
    ofRows rows = .ok a ↔ a.IsOfRows rows (widthOf rows) := by
  unfold ofRows
  split
  · rename_i row found h
    refine iff_of_false (by simp) fun ha => ?_
    rw [firstRagged_eq_none_iff.2 ha.length_eq] at h
    cases h
  · rename_i h
    have hrows := firstRagged_eq_none_iff.1 h
    constructor
    · intro ha
      cases ha
      exact ⟨rfl, rfl, by simp, hrows⟩
    · intro ha
      rw [Except.ok.injEq]
      exact IsOfRows.unique ⟨rfl, rfl, by simp, hrows⟩ ha

/-- A buffer with rows of a positive width makes the array that holds them. -/
theorem ofRowMajor_flatten_eq_ok_iff {rows : List (List Double)} {dim : Nat} (hdim : 0 < dim)
    (hrows : ∀ row ∈ rows, row.length = dim) {a : DrawArray} :
    ofRowMajor rows.flatten dim = .ok a ↔ a.IsOfRows rows dim := by
  have hnone : firstRagged dim 0 rows = none := firstRagged_eq_none_iff.2 hrows
  have hlength := length_flatten_of_firstRagged hnone
  have heven : ¬ (dim = 0 ∨ rows.flatten.length % dim ≠ 0) := by
    rw [hlength, Nat.mul_mod_left]
    omega
  have htotal : rows.flatten.length / dim = rows.length := by
    rw [hlength, Nat.mul_div_cancel _ hdim]
  unfold ofRowMajor
  rw [dif_neg heven]
  constructor
  · intro ha
    cases ha
    exact ⟨rfl, htotal, by simp, hrows⟩
  · intro ha
    rw [Except.ok.injEq]
    exact IsOfRows.unique ⟨rfl, htotal, by simp, hrows⟩ ha

/-- Rows set a width where there are any. -/
theorem IsOfRows.widthOf_eq {a : DrawArray} {rows : List (List Double)} {dim : Nat}
    (h : a.IsOfRows rows dim) (hrows : rows ≠ []) : widthOf rows = dim := by
  cases rows with
  | nil => exact absurd rfl hrows
  | cons row rest => exact h.length_eq row List.mem_cons_self

/-- An array of rows holds its own rows. -/
theorem isOfRows_rows {a : DrawArray} {dim : Nat} (h : a.dim = some dim) :
    a.IsOfRows a.rows dim where
  dim_eq := h
  totalDraws_eq := a.length_rows.symm
  values_eq := a.flatten_rows.symm
  length_eq row hrow := by
    rw [length_of_mem_rows hrow, width_of_some h]

/-- The rows that an array holds are its rows. -/
theorem IsOfRows.rows_eq {a : DrawArray} {rows : List (List Double)} {dim : Nat}
    (h : a.IsOfRows rows dim) : a.rows = rows := by
  have hown := isOfRows_rows h.dim_eq
  rw [List.eq_iff_flatten_eq]
  constructor
  · rw [← hown.values_eq, h.values_eq]
  · rw [List.map_congr_left hown.length_eq, List.map_congr_left h.length_eq, List.map_const',
      List.map_const', ← hown.totalDraws_eq, h.totalDraws_eq]

theorem IsOfRows.row_eq {a : DrawArray} {rows : List (List Double)} {dim r : Nat}
    {row : List Double} (h : a.IsOfRows rows dim) (hr : rows[r]? = some row) : a.row r = row := by
  obtain ⟨hlt, -⟩ := List.getElem?_eq_some_iff.1 hr
  rw [← h.totalDraws_eq] at hlt
  rw [← h.rows_eq, DrawArray.rows, List.getElem?_map, List.getElem?_range hlt] at hr
  exact Option.some.inj hr

end ReferenceDraws.DrawArray
