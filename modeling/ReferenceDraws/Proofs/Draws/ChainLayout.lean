import ReferenceDraws.Draws.ChainLayout
import ReferenceDraws.Proofs.Outcome

/-!
# What a chain's draws are

The draws that `ChainLayout.split` takes out of a merged array, entry by
entry.

* The numbers of an array.  `DrawArray.number?` is the number at a row and
  a column, and `getElem?_row` and `getElem?_slice` read rows and slices
  of the buffer through it.
* The place of a chain.  `bounds_eq_ok_iff` says when a chain has a place
  among the draws, and `stop_le_totalDraws` that the place lies inside
  the array.
* The draws of a chain.  `Series.IsBlock` says that a series holds a run
  of rows, in the shape that the index asks for.  There is one lemma for
  each shape, and `isBlock_of_split` says that a chain's draws are the run
  at its place.
-/

namespace ReferenceDraws

namespace DrawArray

/-! ## The numbers of an array -/

/-- The numbers in a row; one for a variable that is a number. -/
def width (a : DrawArray) : Nat := a.dim.getD 1

/-- The number at a row and a column, both counted from zero. -/
def number? (a : DrawArray) (row column : Nat) : Option Double :=
  if row < a.totalDraws ∧ column < a.width then a.values[row * a.width + column]? else none

theorem width_of_none {a : DrawArray} (h : a.dim = none) : a.width = 1 := by
  rw [width, h, Option.getD_none]

theorem width_of_some {a : DrawArray} {dim : Nat} (h : a.dim = some dim) : a.width = dim := by
  rw [width, h, Option.getD_some]

theorem size_values (a : DrawArray) : a.values.size = a.totalDraws * a.width := a.size_eq

theorem size_of_none {a : DrawArray} (h : a.dim = none) : a.values.size = a.totalDraws := by
  rw [size_values, width_of_none h, Nat.mul_one]

/-- A position of a run in the buffer. -/
theorem getElem?_slice (a : DrawArray) {start stop k : Nat} (hk : k < stop - start) :
    (a.slice start stop)[k]? = a.values[start + k]? := by
  rw [slice, Array.getElem?_toList, Array.getElem?_extract]
  split
  · rfl
  · rename_i hlt
    rw [Array.getElem?_eq_none]
    omega

/-- A row ends inside the buffer. -/
theorem row_stop_le {a : DrawArray} {r : Nat} (hr : r < a.totalDraws) :
    (r + 1) * a.width ≤ a.values.size := by
  rw [size_values]
  exact Nat.mul_le_mul_right _ hr

/-- A row has as many numbers as the array is wide. -/
theorem length_row {a : DrawArray} {r : Nat} (hr : r < a.totalDraws) :
    (a.row r).length = a.width := by
  have hstop : (r + 1) * a.width ≤ a.values.size := row_stop_le hr
  have hstep : (r + 1) * a.width = r * a.width + a.width := Nat.succ_mul r a.width
  rw [row, slice, Array.length_toList, Array.size_extract]
  show min ((r + 1) * a.width) a.values.size - r * a.width = a.width
  omega

/-- A number of a row. -/
theorem getElem?_row {a : DrawArray} {r j : Nat} (hr : r < a.totalDraws) (hj : j < a.width) :
    (a.row r)[j]? = a.number? r j := by
  have hstep : (r + 1) * a.width = r * a.width + a.width := Nat.succ_mul r a.width
  rw [number?, if_pos ⟨hr, hj⟩, row]
  exact a.getElem?_slice (by show j < (r + 1) * a.width - r * a.width; omega)

end DrawArray

/-- A series holds the rows of an array from `start` on, `count` of them:
the number of each row where the variable is a number, one element of each
row where an index picks it, or else the whole rows.  Elements count from
one. -/
def Series.IsBlock (a : DrawArray) (index : Option UInt64) (start count : Nat) :
    Series → Prop
  | .scalar values =>
    values.length = count ∧
      match a.dim, index with
      | none, none => ∀ k < count, values[k]? = a.number? (start + k) 0
      | some dim, some i =>
        1 ≤ i.toNat ∧ i.toNat ≤ dim ∧
          ∀ k < count, values[k]? = a.number? (start + k) (i.toNat - 1)
      | _, _ => False
  | .rows rs =>
    rs.length = count ∧
      match a.dim, index with
      | some dim, none =>
        ∀ k < count, ∃ row, rs[k]? = some row ∧ row.length = dim ∧
          ∀ j < dim, row[j]? = a.number? (start + k) j
      | _, _ => False

theorem Series.size_of_isBlock {s : Series} {a : DrawArray} {index : Option UInt64}
    {start count : Nat} (h : s.IsBlock a index start count) : s.size = count := by
  cases s with
  | scalar values => exact h.1
  | rows rs => exact h.1

namespace ChainLayout

/-! ## The place of a chain -/

/-- A layout has a block of draws when its draws are positive and fit a
word. -/
theorem blockSize?_eq_some_iff {chains drawsPerChain : UInt64} {n : Nat} :
    blockSize? chains drawsPerChain = some n ↔
      n = chains.toNat * drawsPerChain.toNat ∧ n ≠ 0 ∧ n ≤ maxWord := by
  rw [blockSize?]
  split
  · rename_i h
    constructor
    · intro hn
      cases hn
    · rintro ⟨rfl, hpos, hle⟩
      omega
  · rename_i h
    constructor
    · rintro ⟨⟩
      omega
    · rintro ⟨rfl, -, -⟩
      rfl

/-- A chain has a place exactly when the draws are a positive multiple of
a valid layout and the layout has that chain. -/
theorem bounds_eq_ok_iff {totalDraws : Nat} {chain chains drawsPerChain : UInt64} {span : Span} :
    bounds totalDraws chain chains drawsPerChain = .ok span ↔
      (∃ n, blockSize? chains drawsPerChain = some n ∧ totalDraws ≠ 0 ∧ totalDraws % n = 0) ∧
        chain < chains ∧
        span = ⟨chain.toNat * drawsPerChain.toNat,
          chain.toNat * drawsPerChain.toNat + drawsPerChain.toNat⟩ := by
  unfold bounds
  cases hblock : blockSize? chains drawsPerChain with
  | none => simp
  | some n =>
    by_cases hvalid : totalDraws ≠ 0 ∧ totalDraws % n = 0
    · by_cases hchain : chains ≤ chain
      · simp [hvalid, hchain, UInt64.not_lt.2 hchain]
      · simp [hvalid, hchain, UInt64.not_le.1 hchain, eq_comm]
    · have hfault : totalDraws = 0 ∨ ¬ totalDraws % n = 0 := by omega
      simp [hfault, hvalid]

/-- The place of a chain lies inside the array. -/
theorem stop_le_totalDraws {totalDraws : Nat} {chain chains drawsPerChain : UInt64} {span : Span}
    (h : bounds totalDraws chain chains drawsPerChain = .ok span) : span.stop ≤ totalDraws := by
  obtain ⟨⟨n, hblock, hpos, hmod⟩, hchain, rfl⟩ := bounds_eq_ok_iff.1 h
  obtain ⟨rfl, -, -⟩ := blockSize?_eq_some_iff.1 hblock
  have hle : chains.toNat * drawsPerChain.toNat ≤ totalDraws :=
    Nat.le_of_dvd (Nat.pos_of_ne_zero hpos) (Nat.dvd_of_mod_eq_zero hmod)
  have hlast : (chain.toNat + 1) * drawsPerChain.toNat ≤ chains.toNat * drawsPerChain.toNat :=
    Nat.mul_le_mul_right _ (UInt64.lt_iff_toNat_lt.1 hchain)
  rw [Nat.succ_mul] at hlast
  exact Nat.le_trans hlast hle

theorem start_le_stop {totalDraws : Nat} {chain chains drawsPerChain : UInt64} {span : Span}
    (h : bounds totalDraws chain chains drawsPerChain = .ok span) : span.start ≤ span.stop := by
  obtain ⟨-, -, rfl⟩ := bounds_eq_ok_iff.1 h
  exact Nat.le_add_right _ _

/-! ## The draws of a chain -/

theorem length_rowsOf (a : DrawArray) (span : Span) :
    (rowsOf a span).length = span.stop - span.start := by
  simp [rowsOf]

theorem getElem?_rowsOf (a : DrawArray) {span : Span} {k : Nat} (hk : k < span.stop - span.start) :
    (rowsOf a span)[k]? = some (a.row (span.start + k)) := by
  simp [rowsOf, hk]

/-- Picking one position of every list, where every list has it. -/
theorem filterMap_getElem? {lists : List (List Double)} {j : Nat}
    (hlong : ∀ l ∈ lists, j < l.length) (k : Nat) :
    (lists.filterMap (·[j]?))[k]? = lists[k]?.bind (·[j]?) ∧
      (lists.filterMap (·[j]?)).length = lists.length := by
  induction lists generalizing k with
  | nil => simp
  | cons l rest ih =>
    have hl : j < l.length := hlong l (by simp)
    have hrest : ∀ m ∈ rest, j < m.length := fun m hm => hlong m (List.mem_cons_of_mem _ hm)
    have hhead : (l :: rest).filterMap (·[j]?) = l[j] :: rest.filterMap (·[j]?) :=
      List.filterMap_cons_some (List.getElem?_eq_getElem hl)
    rw [hhead]
    cases k with
    | zero => simp [hl, (ih hrest 0).2]
    | succ k => simp [(ih hrest k).1, (ih hrest k).2]

/-- The rows of a place inside the array are as wide as the array. -/
theorem length_of_mem_rowsOf {a : DrawArray} {span : Span} (hstop : span.stop ≤ a.totalDraws)
    {row : List Double} (h : row ∈ rowsOf a span) : row.length = a.width := by
  simp only [rowsOf, List.mem_map, List.mem_range'_1] at h
  obtain ⟨r, hr, rfl⟩ := h
  exact DrawArray.length_row (by omega)

/-- An element of every row of a place. -/
theorem getElem?_columnOf {a : DrawArray} (span : Span) {column k : Nat}
    (hstop : span.stop ≤ a.totalDraws) (hcolumn : column < a.width) :
    (columnOf a span column).length = span.stop - span.start ∧
      (k < span.stop - span.start →
        (columnOf a span column)[k]? = a.number? (span.start + k) column) := by
  have hlong : ∀ l ∈ rowsOf a span, column < l.length := by
    intro l hl
    rw [length_of_mem_rowsOf hstop hl]
    exact hcolumn
  obtain ⟨hget, hlength⟩ := filterMap_getElem? hlong k
  constructor
  · rw [columnOf, hlength, length_rowsOf]
  · intro hk
    rw [columnOf, hget, getElem?_rowsOf a hk, Option.bind_some,
      DrawArray.getElem?_row (by omega) hcolumn]

section Shapes

variable {a : DrawArray} {start count : Nat}

/-- A run of numbers. -/
theorem isBlock_slice (hdim : a.dim = none) (hstop : start + count ≤ a.totalDraws) :
    (Series.scalar (a.slice start (start + count))).IsBlock a none start count := by
  have hsize : a.values.size = a.totalDraws := DrawArray.size_of_none hdim
  have hwidth : a.width = 1 := DrawArray.width_of_none hdim
  constructor
  · rw [DrawArray.slice, Array.length_toList, Array.size_extract]
    omega
  · simp only [hdim]
    intro k hk
    rw [a.getElem?_slice (by omega), DrawArray.number?, if_pos (by omega), hwidth, Nat.mul_one,
      Nat.add_zero]

/-- An element of every row of a run. -/
theorem isBlock_columnOf {dim : Nat} {i : UInt64} (hdim : a.dim = some dim)
    (hlow : 1 ≤ i.toNat) (hhigh : i.toNat ≤ dim) (hstop : start + count ≤ a.totalDraws) :
    (Series.scalar (columnOf a ⟨start, start + count⟩ (i.toNat - 1))).IsBlock a (some i) start
      count := by
  have hcount : start + count - start = count := by omega
  have hcolumn : i.toNat - 1 < a.width := by
    rw [DrawArray.width_of_some hdim]
    omega
  have hget := fun k => getElem?_columnOf (k := k) ⟨start, start + count⟩ hstop hcolumn
  constructor
  · exact (hget 0).1.trans hcount
  · simp only [hdim]
    refine ⟨hlow, hhigh, fun k hk => (hget k).2 ?_⟩
    rwa [hcount]

/-- A run of rows. -/
theorem isBlock_rowsOf {dim : Nat} (hdim : a.dim = some dim)
    (hstop : start + count ≤ a.totalDraws) :
    (Series.rows (rowsOf a ⟨start, start + count⟩)).IsBlock a none start count := by
  have hcount : start + count - start = count := by omega
  have hwidth : a.width = dim := DrawArray.width_of_some hdim
  constructor
  · exact (length_rowsOf a _).trans hcount
  · simp only [hdim]
    intro k hk
    have hrow : start + k < a.totalDraws := by omega
    refine ⟨a.row (start + k), getElem?_rowsOf a (by rwa [hcount]), ?_, fun j hj => ?_⟩
    · rw [DrawArray.length_row hrow, hwidth]
    · exact DrawArray.getElem?_row hrow (by rwa [hwidth])

end Shapes

/-- The draws of a chain are the rows at its place, in the shape that the
index asks for. -/
theorem isBlock_of_split {a : DrawArray} {chain chains drawsPerChain : UInt64}
    {index : Option UInt64} {series : Series}
    (h : split a chain chains drawsPerChain index = .ok series) :
    series.IsBlock a index (chain.toNat * drawsPerChain.toNat) drawsPerChain.toNat := by
  obtain ⟨span, hspan, h⟩ := bind_eq_ok_iff.1 h
  have hstop : span.stop ≤ a.totalDraws := stop_le_totalDraws hspan
  obtain ⟨-, -, rfl⟩ := bounds_eq_ok_iff.1 hspan
  cases hdim : a.dim with
  | none =>
    cases index with
    | some i => simp [hdim] at h
    | none =>
      simp only [hdim] at h
      cases h
      exact isBlock_slice hdim hstop
  | some dim =>
    cases index with
    | some i =>
      simp only [hdim] at h
      split at h
      · cases h
      · rename_i hindex
        cases h
        have hpos : i.toNat ≠ 0 := fun hzero => hindex (.inl (UInt64.toNat_inj.1 hzero))
        exact isBlock_columnOf hdim (by omega) (by omega) hstop
    | none =>
      simp only [hdim] at h
      cases h
      exact isBlock_rowsOf hdim hstop

end ChainLayout

end ReferenceDraws
