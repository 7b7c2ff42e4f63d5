import ReferenceDraws.Proofs.Draws.Faults

/-!
# The chains partition the draws

The places of the chains lie one behind another and fill a block of draws,
and the draws of the chains, put one behind another, are the draws of that
block.

* Places.  `exists_bounds_iff` says which chains have a place, and
  `toNat_place` that words are wide enough to compute it.
  `contains_unique` and `exists_contains_iff` say that the places are disjoint
  and what they cover.
* Blocks.  `Series.Joins` puts series one behind another.  Two neighbouring
  runs of rows make one (`Series.IsBlock.append`), and so, by induction, do
  the runs of all chains (`exists_joins`).
* Chains.  If one chain is accepted, all are (`exists_split_of_split`), and
  `chains_partition_draws` puts the facts together.
-/

namespace ReferenceDraws

namespace ChainLayout

/-! ## Places -/

/-- A place holds a row. -/
def Span.Contains (span : Span) (row : Nat) : Prop := span.start ≤ row ∧ row < span.stop

variable {totalDraws : Nat} {chain other chains drawsPerChain : UInt64} {span next : Span}

/-- The chains of a layout have a place where the draws divide into blocks. -/
theorem exists_bounds_iff :
    (∃ span, bounds totalDraws chain chains drawsPerChain = .ok span) ↔
      Divides chains drawsPerChain totalDraws ∧ chain < chains := by
  constructor
  · rintro ⟨span, h⟩
    obtain ⟨hblock, hchain, -⟩ := bounds_eq_ok_iff.1 h
    exact ⟨divides_iff.2 hblock, hchain⟩
  · rintro ⟨hdivides, hchain⟩
    exact ⟨_, bounds_eq_ok_iff.2 ⟨divides_iff.1 hdivides, hchain, rfl⟩⟩

theorem span_eq_of_bounds (h : bounds totalDraws chain chains drawsPerChain = .ok span) :
    span.start = chain.toNat * drawsPerChain.toNat ∧
      span.stop = chain.toNat * drawsPerChain.toNat + drawsPerChain.toNat := by
  obtain ⟨-, -, rfl⟩ := bounds_eq_ok_iff.1 h
  exact ⟨rfl, rfl⟩

/-- A place ends inside the block of all chains. -/
theorem stop_le_blockSize (hchain : chain < chains) :
    chain.toNat * drawsPerChain.toNat + drawsPerChain.toNat ≤
      chains.toNat * drawsPerChain.toNat := by
  rw [← Nat.succ_mul]
  exact Nat.mul_le_mul_right _ (UInt64.lt_iff_toNat_lt.1 hchain)

/-- A place is the same whether it is computed with words or with numbers. -/
theorem toNat_place (h : bounds totalDraws chain chains drawsPerChain = .ok span) :
    span.stop ≤ maxWord ∧ (chain * drawsPerChain).toNat = span.start ∧
      (chain * drawsPerChain + drawsPerChain).toNat = span.stop := by
  obtain ⟨hdivides, hchain⟩ := exists_bounds_iff.1 ⟨span, h⟩
  obtain ⟨hstart, hstop⟩ := span_eq_of_bounds h
  obtain ⟨-, hword, -, -⟩ := hdivides
  have hle := Nat.le_trans (stop_le_blockSize hchain) hword
  have hlt : chain.toNat * drawsPerChain.toNat + drawsPerChain.toNat < 2 ^ 64 :=
    Nat.lt_of_le_pred (by decide) hle
  have hmul : (chain * drawsPerChain).toNat = chain.toNat * drawsPerChain.toNat := by
    rw [UInt64.toNat_mul, Nat.mod_eq_of_lt (by omega)]
  refine ⟨hstop ▸ hle, hmul.trans hstart.symm, ?_⟩
  rw [UInt64.toNat_add, hmul, Nat.mod_eq_of_lt hlt, hstop]

/-- A row that the place of a chain holds tells the chain. -/
theorem toNat_eq_of_contains (h : bounds totalDraws chain chains drawsPerChain = .ok span)
    {row : Nat} (hrow : span.Contains row) : chain.toNat = row / drawsPerChain.toNat := by
  obtain ⟨hstart, hstop⟩ := span_eq_of_bounds h
  obtain ⟨hlow, hhigh⟩ := hrow
  rw [hstart] at hlow
  rw [hstop, ← Nat.succ_mul] at hhigh
  have hpos : 0 < drawsPerChain.toNat := by
    refine Nat.pos_of_ne_zero fun h0 => ?_
    simp [h0] at hhigh
  exact (Nat.div_eq_of_lt_le hlow hhigh).symm

/-- The places of two chains have no row in common. -/
theorem contains_unique (h : bounds totalDraws chain chains drawsPerChain = .ok span)
    (hother : bounds totalDraws other chains drawsPerChain = .ok next) (hne : chain ≠ other)
    (row : Nat) : ¬ (span.Contains row ∧ next.Contains row) := by
  rintro ⟨hrow, hrow'⟩
  refine hne (UInt64.toNat_inj.1 ?_)
  rw [toNat_eq_of_contains h hrow, toNat_eq_of_contains hother hrow']

/-- The places of all chains cover the block of all chains. -/
theorem exists_contains_iff (hdivides : Divides chains drawsPerChain totalDraws) {row : Nat} :
    (∃ chain span, bounds totalDraws chain chains drawsPerChain = .ok span ∧ span.Contains row) ↔
      row < chains.toNat * drawsPerChain.toNat := by
  constructor
  · rintro ⟨chain, span, h, -, hhigh⟩
    obtain ⟨-, hchain⟩ := exists_bounds_iff.1 ⟨span, h⟩
    rw [(span_eq_of_bounds h).2] at hhigh
    exact Nat.lt_of_lt_of_le hhigh (stop_le_blockSize hchain)
  · intro hrow
    have hlt : row / drawsPerChain.toNat < chains.toNat :=
      Nat.div_lt_of_lt_mul (by rwa [Nat.mul_comm])
    have hword : (UInt64.ofNat (row / drawsPerChain.toNat)).toNat = row / drawsPerChain.toNat :=
      UInt64.toNat_ofNat_of_lt' (Nat.lt_trans hlt chains.toNat_lt)
    have hpos : 0 < drawsPerChain.toNat := by
      refine Nat.pos_of_ne_zero fun h0 => ?_
      simp [h0] at hrow
    have hchain : UInt64.ofNat (row / drawsPerChain.toNat) < chains := by
      rwa [UInt64.lt_iff_toNat_lt, hword]
    obtain ⟨span, h⟩ := exists_bounds_iff.2 ⟨hdivides, hchain⟩
    obtain ⟨hstart, hstop⟩ := span_eq_of_bounds h
    rw [hword] at hstart hstop
    refine ⟨_, span, h, ?_, ?_⟩
    · rw [hstart]
      exact Nat.div_mul_le_self row _
    · rw [hstop]
      exact Nat.lt_div_mul_add hpos

end ChainLayout

namespace Series

/-! ## Blocks -/

/-- Series of one kind make a series of that kind when they are put one behind
another. -/
inductive Joins : List Series → Series → Prop
  | scalar (parts : List (List Double)) : Joins (parts.map .scalar) (.scalar parts.flatten)
  | rows (parts : List (List (List Double))) : Joins (parts.map .rows) (.rows parts.flatten)

/-- The column that an index picks, counted from zero: the one column of a
variable that is a number, or else an element of the rows. -/
inductive IsColumn (a : DrawArray) : Option UInt64 → Nat → Prop
  | number (hdim : a.dim = none) : IsColumn a none 0
  | element {dim : Nat} {i : UInt64} (hdim : a.dim = some dim) (hlow : 1 ≤ i.toNat)
    (hhigh : i.toNat ≤ dim) : IsColumn a (some i) (i.toNat - 1)

/-- What stands at a row of an array, whole. -/
def IsRow (a : DrawArray) (dim r : Nat) (row : Option (List Double)) : Prop :=
  ∃ numbers, row = some numbers ∧ numbers.length = dim ∧ ∀ j < dim, numbers[j]? = a.number? r j

variable {a : DrawArray} {index : Option UInt64} {start m n : Nat} {s t : Series}

theorem isBlock_scalar_iff {values : List Double} :
    (scalar values).IsBlock a index start m ↔ values.length = m ∧
      ∃ column, IsColumn a index column ∧
        ∀ k < m, values[k]? = a.number? (start + k) column := by
  constructor
  · rintro ⟨hlength, h⟩
    refine ⟨hlength, ?_⟩
    split at h
    · rename_i hdim
      exact ⟨0, .number hdim, h⟩
    · rename_i hdim
      exact ⟨_, .element hdim h.1 h.2.1, h.2.2⟩
    · exact h.elim
  · rintro ⟨hlength, column, hcolumn, h⟩
    refine ⟨hlength, ?_⟩
    cases hcolumn with
    | number hdim => simpa only [hdim] using h
    | element hdim hlow hhigh => simpa only [hdim] using ⟨hlow, hhigh, h⟩

theorem isBlock_rows_iff {rs : List (List Double)} :
    (rows rs).IsBlock a index start m ↔ rs.length = m ∧
      ∃ dim, a.dim = some dim ∧ index = none ∧ ∀ k < m, IsRow a dim (start + k) rs[k]? := by
  constructor
  · rintro ⟨hlength, h⟩
    refine ⟨hlength, ?_⟩
    split at h
    · rename_i hdim
      exact ⟨_, hdim, rfl, h⟩
    · exact h.elim
  · rintro ⟨hlength, dim, hdim, rfl, h⟩
    refine ⟨hlength, ?_⟩
    simp only [hdim]
    exact h

theorem IsColumn.unique {c d : Nat} (hc : IsColumn a index c) (hd : IsColumn a index d) :
    c = d := by
  cases hc <;> cases hd <;> rfl

/-- A variable that is a number has no rows to take whole. -/
theorem IsColumn.dim_eq_none {column : Nat} (h : IsColumn a none column) : a.dim = none := by
  cases h with
  | number hdim => exact hdim

/-- No rows are a block. -/
theorem IsBlock.empty (h : s.IsBlock a index start m) :
    ∃ joined, Joins [] joined ∧ joined.IsBlock a index 0 0 := by
  cases s with
  | scalar values =>
    obtain ⟨-, column, hcolumn, -⟩ := isBlock_scalar_iff.1 h
    have hnone : ∀ k < 0, ([] : List Double)[k]? = a.number? (0 + k) column :=
      fun k hk => absurd hk (Nat.not_lt_zero k)
    exact ⟨_, .scalar [], isBlock_scalar_iff.2 ⟨rfl, column, hcolumn, hnone⟩⟩
  | rows rs =>
    obtain ⟨-, dim, hdim, hindex, -⟩ := isBlock_rows_iff.1 h
    have hnone : ∀ k < 0, IsRow a dim (0 + k) ([] : List (List Double))[k]? :=
      fun k hk => absurd hk (Nat.not_lt_zero k)
    exact ⟨_, .rows [], isBlock_rows_iff.2 ⟨rfl, dim, hdim, hindex, hnone⟩⟩

/-- What holds of the entries of two neighbouring runs holds of the entries of
both together. -/
theorem forall_append {α : Type} {P : Nat → Option α → Prop} {xs ys : List α}
    (hxs : ∀ k < xs.length, P (start + k) xs[k]?)
    (hys : ∀ k < ys.length, P (start + xs.length + k) ys[k]?) :
    ∀ k < xs.length + ys.length, P (start + k) (xs ++ ys)[k]? := by
  intro k hk
  by_cases hlt : k < xs.length
  · rw [List.getElem?_append_left hlt]
    exact hxs k hlt
  · have hback : start + k = start + xs.length + (k - xs.length) := by omega
    rw [List.getElem?_append_right (by omega), hback]
    exact hys (k - xs.length) (by omega)

/-- A block and the block behind it make one. -/
theorem IsBlock.append {parts : List Series} (hparts : Joins parts s)
    (hs : s.IsBlock a index start m) (ht : t.IsBlock a index (start + m) n) :
    ∃ joined, Joins (parts ++ [t]) joined ∧ joined.IsBlock a index start (m + n) := by
  cases hparts with
  | scalar parts =>
    obtain ⟨rfl, column, hcolumn, hleft⟩ := isBlock_scalar_iff.1 hs
    cases t with
    | scalar values =>
      obtain ⟨rfl, column', hcolumn', hright⟩ := isBlock_scalar_iff.1 ht
      cases hcolumn.unique hcolumn'
      have hjoins := Joins.scalar (parts ++ [values])
      rw [List.map_append, List.flatten_concat] at hjoins
      refine ⟨_, hjoins, isBlock_scalar_iff.2 ⟨List.length_append, column, hcolumn, ?_⟩⟩
      exact forall_append (P := fun r value => value = a.number? r column) hleft hright
    | rows rs =>
      obtain ⟨-, dim, hdim, rfl, -⟩ := isBlock_rows_iff.1 ht
      cases hcolumn.dim_eq_none.symm.trans hdim
  | rows parts =>
    obtain ⟨rfl, dim, hdim, rfl, hleft⟩ := isBlock_rows_iff.1 hs
    cases t with
    | scalar values =>
      obtain ⟨-, column, hcolumn, -⟩ := isBlock_scalar_iff.1 ht
      cases hcolumn.dim_eq_none.symm.trans hdim
    | rows rs =>
      obtain ⟨rfl, dim', hdim', -, hright⟩ := isBlock_rows_iff.1 ht
      cases hdim.symm.trans hdim'
      have hjoins := Joins.rows (parts ++ [rs])
      rw [List.map_append, List.flatten_concat] at hjoins
      refine ⟨_, hjoins, isBlock_rows_iff.2 ⟨List.length_append, dim, hdim, rfl, ?_⟩⟩
      exact forall_append (P := IsRow a dim) hleft hright

/-- Blocks of one size, each behind the one before, make the block of all. -/
theorem exists_joins {parts : List Series} {size : Nat} (hs : s.IsBlock a index start m)
    (h : ∀ c < parts.length, ∃ part, parts[c]? = some part ∧
      part.IsBlock a index (c * size) size) :
    ∃ joined, Joins parts joined ∧ joined.IsBlock a index 0 (parts.length * size) := by
  induction parts using List.reverseRecOn with
  | nil =>
    rw [List.length_nil, Nat.zero_mul]
    exact hs.empty
  | append_singleton parts last ih =>
    simp only [List.length_append, List.length_singleton] at h ⊢
    obtain ⟨joined, hjoins, hblock⟩ := ih fun c hc => by
      obtain ⟨part, hpart, hplace⟩ := h c (by omega)
      rw [List.getElem?_append_left hc] at hpart
      exact ⟨part, hpart, hplace⟩
    obtain ⟨part, hpart, hlast⟩ := h parts.length (by omega)
    rw [List.getElem?_concat_length, Option.some_inj] at hpart
    subst hpart
    rw [Nat.succ_mul]
    exact IsBlock.append hjoins hblock (by rwa [Nat.zero_add])

end Series

namespace ChainLayout

/-! ## Chains -/

variable {a : DrawArray} {chain chains drawsPerChain : UInt64} {index : Option UInt64}
  {series : Series}

theorem lt_of_split (h : split a chain chains drawsPerChain index = .ok series) :
    chain < chains := by
  obtain ⟨span, hspan, -⟩ := bind_eq_ok_iff.1 h
  exact (exists_bounds_iff.1 ⟨span, hspan⟩).2

/-- Elements count from one. -/
theorem index_ne_zero_of_split (h : split a chain chains drawsPerChain index = .ok series) :
    index ≠ some 0 := by
  rintro rfl
  obtain ⟨span, -, h⟩ := bind_eq_ok_iff.1 h
  cases hdim : a.dim <;> simp [hdim] at h

/-- If one chain is accepted, all are. -/
theorem exists_split_of_split (h : split a chain chains drawsPerChain index = .ok series)
    {other : UInt64} (hother : other < chains) :
    ∃ part, split a other chains drawsPerChain index = .ok part := by
  cases hpart : split a other chains drawsPerChain index with
  | ok part => exact ⟨part, rfl⟩
  | error fault =>
    have hindex := index_ne_zero_of_split h
    have hfault := (split_eq_error_iff hother hindex).1 hpart
    rw [(split_eq_error_iff (lt_of_split h) hindex).2 hfault] at h
    cases h

/-- The draws of all chains, first chain first. -/
theorem exists_parts_of_split (h : split a chain chains drawsPerChain index = .ok series) :
    ∃ parts : List Series, parts.length = chains.toNat ∧ ∀ other < chains, ∃ part,
      parts[other.toNat]? = some part ∧ split a other chains drawsPerChain index = .ok part := by
  have haccepted : ∀ c : Fin chains.toNat, ∃ part,
      split a (UInt64.ofNat c) chains drawsPerChain index = .ok part := by
    intro c
    have hword : (UInt64.ofNat c).toNat = c :=
      UInt64.toNat_ofNat_of_lt' (Nat.lt_trans c.isLt chains.toNat_lt)
    refine exists_split_of_split h (UInt64.lt_iff_toNat_lt.2 ?_)
    rw [hword]
    exact c.isLt
  choose part hpart using haccepted
  refine ⟨List.ofFn part, List.length_ofFn, fun other hother => ?_⟩
  have hlt := UInt64.lt_iff_toNat_lt.1 hother
  refine ⟨part ⟨other.toNat, hlt⟩, ?_, ?_⟩
  · rw [List.getElem?_ofFn, dif_pos hlt]
  · have hother := hpart ⟨other.toNat, hlt⟩
    rwa [UInt64.ofNat_toNat] at hother

/-- A layout has chains with a place where the draws divide into its blocks,
and only there.  The places can be computed with words.  They lie one behind
another, are as long as a chain, have no row in common and cover the first
block of draws.  The draws of all chains of an array, put one behind another,
are the draws of that block, and they are the draws of the whole array exactly
when it has no others. -/
theorem chains_partition_draws (totalDraws : Nat) (chains drawsPerChain : UInt64) :
    (∀ chain, (∃ span, bounds totalDraws chain chains drawsPerChain = .ok span) ↔
      Divides chains drawsPerChain totalDraws ∧ chain < chains) ∧
    (∀ chain span, bounds totalDraws chain chains drawsPerChain = .ok span →
      span.start = chain.toNat * drawsPerChain.toNat ∧
        span.stop = span.start + drawsPerChain.toNat ∧ span.stop ≤ maxWord ∧
        (chain * drawsPerChain).toNat = span.start ∧
        (chain * drawsPerChain + drawsPerChain).toNat = span.stop) ∧
    (∀ chain other span next, bounds totalDraws chain chains drawsPerChain = .ok span →
      bounds totalDraws other chains drawsPerChain = .ok next →
        (other.toNat = chain.toNat + 1 → next.start = span.stop) ∧
          (chain ≠ other → ∀ row, ¬ (span.Contains row ∧ next.Contains row))) ∧
    (Divides chains drawsPerChain totalDraws → ∀ row,
      (∃ chain span, bounds totalDraws chain chains drawsPerChain = .ok span ∧
        span.Contains row) ↔ row < chains.toNat * drawsPerChain.toNat) ∧
    ∀ a index chain series, split a chain chains drawsPerChain index = .ok series →
      ∃ parts joined, parts.length = chains.toNat ∧
        (∀ other < chains, ∃ part, parts[other.toNat]? = some part ∧
          split a other chains drawsPerChain index = .ok part) ∧
        Series.Joins parts joined ∧
        joined.IsBlock a index 0 (chains.toNat * drawsPerChain.toNat) ∧
        (joined.IsBlock a index 0 a.totalDraws ↔
          a.totalDraws = chains.toNat * drawsPerChain.toNat) := by
  refine ⟨fun chain => exists_bounds_iff, ?_, ?_, fun h row => exists_contains_iff h, ?_⟩
  · intro chain span h
    obtain ⟨hstart, hstop⟩ := span_eq_of_bounds h
    exact ⟨hstart, by rw [hstop, hstart], toNat_place h⟩
  · intro chain other span next h hnext
    refine ⟨fun hother => ?_, fun hne => contains_unique h hnext hne⟩
    rw [(span_eq_of_bounds h).2, (span_eq_of_bounds hnext).1, hother, Nat.succ_mul]
  · intro a index chain series h
    obtain ⟨parts, hlength, hparts⟩ := exists_parts_of_split h
    have hblocks : ∀ c < parts.length, ∃ part, parts[c]? = some part ∧
        part.IsBlock a index (c * drawsPerChain.toNat) drawsPerChain.toNat := by
      intro c hc
      rw [hlength] at hc
      have hword : (UInt64.ofNat c).toNat = c :=
        UInt64.toNat_ofNat_of_lt' (Nat.lt_trans hc chains.toNat_lt)
      obtain ⟨part, hpart, hsplit⟩ := hparts (UInt64.ofNat c)
        (UInt64.lt_iff_toNat_lt.2 (by rwa [hword]))
      have hblock := isBlock_of_split hsplit
      rw [hword] at hpart hblock
      exact ⟨part, hpart, hblock⟩
    obtain ⟨joined, hjoins, hblock⟩ := Series.exists_joins (isBlock_of_split h) hblocks
    rw [hlength] at hblock
    refine ⟨parts, joined, hlength, hparts, hjoins, hblock, fun hwhole => ?_, fun hall => ?_⟩
    · rw [← Series.size_of_isBlock hwhole, Series.size_of_isBlock hblock]
    · rwa [hall]

/-- The last of `2 ^ 32` chains, whose place ends at the greatest multiple of
their number that is a word, and two chains of one draw that leave the other
two of their array. -/
theorem chains_partition_draws_last :
    (∃ span, bounds 18446744069414584320 4294967295 4294967296 4294967295 = .ok span ∧
      (4294967295 * 4294967295 : UInt64).toNat = span.start ∧
      (4294967295 * 4294967295 + 4294967295 : UInt64).toNat = span.stop) ∧
    ∃ first second joined, split pairedDraws 0 2 1 (some 2) = .ok first ∧
      split pairedDraws 1 2 1 (some 2) = .ok second ∧
      Series.Joins [first, second] joined ∧
      joined.IsBlock pairedDraws (some 2) 0 2 ∧
      ¬ joined.IsBlock pairedDraws (some 2) 0 4 := by
  constructor
  · obtain ⟨hplaces, hwords, -⟩ :=
      chains_partition_draws 18446744069414584320 4294967296 4294967295
    obtain ⟨span, hspan⟩ := (hplaces 4294967295).2 (by decide)
    obtain ⟨-, -, -, hstart, hstop⟩ := hwords _ span hspan
    exact ⟨span, hspan, hstart, hstop⟩
  · obtain ⟨-, -, -, -, hparts⟩ := chains_partition_draws 4 2 1
    have hsplit : split pairedDraws 1 2 1 (some 2) = .ok (.scalar [.nan]) := by decide
    obtain ⟨parts, joined, hlength, hget, hjoins, hblock, hwhole⟩ := hparts _ _ _ _ hsplit
    obtain ⟨first, hfirst, hsplit₀⟩ := hget 0 (by decide)
    obtain ⟨second, hsecond, hsplit₁⟩ := hget 1 (by decide)
    have hlist : parts = [first, second] := by
      match parts, hlength with
      | [x, y], _ => simp_all
    rw [hlist] at hjoins
    refine ⟨first, second, joined, hsplit₀, hsplit₁, hjoins, hblock, ?_⟩
    exact fun h => absurd (hwhole.1 h) (by decide)

end ChainLayout

end ReferenceDraws
