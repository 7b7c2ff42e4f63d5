import ReferenceDraws.Proofs.Last
import ReferenceDraws.Proofs.OrderedMap
import ReferenceDraws.Summary.Table

/-!
# What a summary table reports

A table and its rows are filled from left to right and from top to bottom,
and what comes later replaces what came before.  This module says which cell
and which record are the ones that count.

* Cells.  `Reports` says what a record has under a column, `FirstReported` what
  it has under the first of several columns, and `EffectiveSize` which of the
  columns counts as the bulk effective sample size.  These are the statistics
  of a row (`effectiveSize_iff`, `rHat_ofColumns_iff`).
* Records.  Under a name lies the row of the last record of that name
  (`get?_ofTable_eq_some_iff`), so that a property of the rows of all
  parameters is one of their last records (`forall_parameterNames_iff`).
-/

namespace ReferenceDraws

namespace SummaryTable

/-! ## Cells -/

/-- What a record has under a column: the last cell there that is a number,
the first cell of the record aside. -/
def Reports (header record : List String) (column : String) (x : Double) : Prop :=
  ∃ cell, Double.ofString? cell = some x ∧
    IsLast (fun c => c.1 = column ∧ (Double.ofString? c.2).isSome) ((header.zip record).drop 1)
      (column, cell)

/-- The bulk effective sample size of a record: what it has under `N_Eff`, else
what it has under `ESS_bulk`, else zero. -/
inductive EffectiveSize (header record : List String) : Double → Prop
  | legacy {x : Double} (h : Reports header record "N_Eff" x) : EffectiveSize header record x
  | bulk {x : Double} (hlegacy : ∀ y, ¬ Reports header record "N_Eff" y)
      (h : Reports header record "ESS_bulk" x) : EffectiveSize header record x
  | absent (hlegacy : ∀ y, ¬ Reports header record "N_Eff" y)
      (hbulk : ∀ y, ¬ Reports header record "ESS_bulk" y) : EffectiveSize header record .zero

/-- What a record has under the first of some columns under which it has a
number, and otherwise a default. -/
inductive FirstReported (header record : List String) (fallback : Double) :
    List String → Double → Prop
  | absent : FirstReported header record fallback [] fallback
  | here {column : String} {more : List String} {x : Double} (h : Reports header record column x) :
    FirstReported header record fallback (column :: more) x
  | later {column : String} {more : List String} {x : Double}
    (hnone : ∀ y, ¬ Reports header record column y)
    (h : FirstReported header record fallback more x) :
    FirstReported header record fallback (column :: more) x

variable {header record : List String}

/-- The value that a row takes from a column is what the record has under it. -/
theorem lastOf_numericColumns {column : String} {x : Double} :
    SummaryRow.lastOf column (numericColumns header record) = some x ↔
      Reports header record column x := by
  have hcell : ∀ c : String × String,
      (∃ e : String × Double, (Double.ofString? c.2).map (c.1, ·) = some e ∧ e.1 = column) ↔
        c.1 = column ∧ (Double.ofString? c.2).isSome := by
    intro c
    cases Double.ofString? c.2 <;> simp
  rw [SummaryRow.lastOf, lookup_reverse_eq_some_iff, numericColumns, isLast_filterMap_iff,
    Reports]
  simp only [IsLast.congr hcell]
  constructor
  · rintro ⟨⟨c, cell⟩, hlast, he⟩
    obtain ⟨y, hy, hpair⟩ := Option.map_eq_some_iff.1 he
    cases hpair
    exact ⟨cell, hy, hlast⟩
  · rintro ⟨cell, hx, hlast⟩
    exact ⟨(column, cell), hlast, by simp [hx]⟩

theorem lastOf_numericColumns_eq_none {column : String} :
    SummaryRow.lastOf column (numericColumns header record) = none ↔
      ∀ x, ¬ Reports header record column x := by
  simp only [Option.eq_none_iff_forall_ne_some, ne_eq, lastOf_numericColumns]

/-- What is reported first is what a search through the columns finds. -/
theorem firstReported_iff {fallback : Double} {columns : List String} {x : Double} :
    FirstReported header record fallback columns x ↔
      (columns.findSome? fun column =>
        SummaryRow.lastOf column (numericColumns header record)).getD fallback = x := by
  induction columns with
  | nil =>
    constructor
    · rintro ⟨⟩
      rfl
    · rintro rfl
      exact .absent
  | cons column more ih =>
    rw [List.findSome?_cons]
    cases hlast : SummaryRow.lastOf column (numericColumns header record) with
    | none =>
      rw [← ih]
      rw [lastOf_numericColumns_eq_none] at hlast
      constructor
      · rintro (_ | h | ⟨-, h⟩)
        · exact absurd h (hlast x)
        · exact h
      · exact .later hlast
    | some y =>
      rw [lastOf_numericColumns] at hlast
      constructor
      · rintro (_ | h | ⟨hnone, -⟩)
        · rw [← lastOf_numericColumns] at h hlast
          exact Option.some.inj (hlast.symm.trans h)
        · exact absurd hlast (hnone y)
      · rintro rfl
        exact .here hlast

theorem findSome?_pair {f : String → Option Double} (a b : String) :
    [a, b].findSome? f = (f a <|> f b) := by
  rw [List.findSome?_cons]
  cases f a with
  | none => exact List.findSome?_singleton
  | some x => rfl

/-- The bulk effective sample size is what is reported first under two columns. -/
theorem effectiveSize_iff_firstReported {x : Double} :
    EffectiveSize header record x ↔
      FirstReported header record .zero ["N_Eff", "ESS_bulk"] x := by
  constructor
  · rintro (h | ⟨hlegacy, h⟩ | ⟨hlegacy, hbulk⟩)
    · exact .here h
    · exact .later hlegacy (.here h)
    · exact .later hlegacy (.later hbulk .absent)
  · rintro (_ | h | ⟨hlegacy, _ | h | ⟨hbulk, ⟨⟩⟩⟩)
    · exact .legacy h
    · exact .bulk hlegacy h
    · exact .absent hlegacy hbulk

/-- The bulk effective sample size of a row is the one of the record. -/
theorem effectiveSize_iff {x : Double} :
    EffectiveSize header record x ↔
      (SummaryRow.ofColumns (numericColumns header record)).essBulk = x := by
  rw [effectiveSize_iff_firstReported, firstReported_iff, findSome?_pair]
  rfl

/-- The scale reduction factor of a row is what the record has, and otherwise
one, so that it passes a test that one passes if what the record has does. -/
theorem rHat_ofColumns_iff {P : Double → Prop} (hone : P .one) :
    P (SummaryRow.ofColumns (numericColumns header record)).rHat ↔
      ∀ x, Reports header record "R_hat" x → P x := by
  simp only [SummaryRow.ofColumns, ← lastOf_numericColumns]
  cases SummaryRow.lastOf "R_hat" (numericColumns header record) with
  | some y => simp
  | none => exact iff_of_true hone (by simp)

/-! ## Records -/

/-- The entry of a record, whose first cell is not empty. -/
def rowOf? (header record : List String) : Option (String × SummaryRow) :=
  match record with
  | [] => none
  | name :: _ =>
    if name = "" then none else some (name, .ofColumns (numericColumns header record))

theorem rowOf?_eq_some_iff {e : String × SummaryRow} :
    rowOf? header record = some e ↔
      record.head? = some e.1 ∧ e.1 ≠ "" ∧ e.2 = .ofColumns (numericColumns header record) := by
  obtain ⟨name, row⟩ := e
  cases record with
  | nil => simp [rowOf?]
  | cons cell rest =>
    by_cases hcell : cell = ""
    · simp +contextual [rowOf?, hcell, eq_comm]
    · simp only [rowOf?, if_neg hcell, Option.some.injEq, Prod.mk.injEq, List.head?_cons]
      constructor
      · rintro ⟨rfl, rfl⟩
        exact ⟨rfl, hcell, rfl⟩
      · rintro ⟨rfl, -, rfl⟩
        exact ⟨rfl, rfl⟩

/-- A table of text is entered record by record. -/
theorem ofTable_eq (table : Csv.Table) :
    ofTable table = OrderedMap.ofList (table.records.filterMap (rowOf? table.header)) := by
  rw [OrderedMap.ofList, List.foldl_filterMap, ofTable]
  congr
  funext t record
  cases record with
  | nil => rfl
  | cons name rest =>
    by_cases hname : name = ""
    · simp [enter, rowOf?, hname]
    · simp [enter, rowOf?, hname, String.isEmpty_iff]

/-- Under a name lies the row of the last record of that name. -/
theorem get?_ofTable_eq_some_iff {table : Csv.Table} {name : String} {row : SummaryRow} :
    (ofTable table).get? name = some row ↔
      name ≠ "" ∧ ∃ record, IsLast (·.head? = some name) table.records record ∧
        row = .ofColumns (numericColumns table.header record) := by
  rw [ofTable_eq, OrderedMap.get?_ofList, lookup_reverse_eq_some_iff, isLast_filterMap_iff]
  by_cases hname : name = ""
  · simp [rowOf?_eq_some_iff, hname]
  · have hentry : ∀ record, (∃ e, rowOf? table.header record = some e ∧ e.1 = name) ↔
        record.head? = some name := by
      intro record
      simp only [rowOf?_eq_some_iff]
      constructor
      · rintro ⟨e, ⟨hhead, -, -⟩, rfl⟩
        exact hhead
      · intro hhead
        exact ⟨(name, _), ⟨hhead, hname, rfl⟩, rfl⟩
    simp only [IsLast.congr hentry]
    constructor
    · rintro ⟨record, hlast, he⟩
      exact ⟨hname, record, hlast, (rowOf?_eq_some_iff.1 he).2.2⟩
    · rintro ⟨-, record, hlast, hrow⟩
      exact ⟨record, hlast, rowOf?_eq_some_iff.2 ⟨hlast.holds, hname, hrow⟩⟩

/-! ## Parameters -/

/-- Whether a record is the one that counts for a parameter: the last of its
name, which is not that of a log density. -/
def IsRecordOf (table : Csv.Table) (name : String) (record : List String) : Prop :=
  name ≠ "" ∧ ¬ "lp__".toList <+: name.toList ∧
    IsLast (·.head? = some name) table.records record

/-- What holds of the rows of all parameters holds of the records that count
for them. -/
theorem forall_parameterNames_iff (table : Csv.Table) (P : SummaryRow → Prop) :
    (∀ name ∈ (ofTable table).parameterNames, P ((ofTable table).rowOrNeutral name)) ↔
      ∀ name record, IsRecordOf table name record →
        P (.ofColumns (numericColumns table.header record)) := by
  have hmark : ∀ name, (!isLogDensity name) = true ↔ ¬ "lp__".toList <+: name.toList := by
    intro name
    rw [isLogDensity, logDensityMark, Bool.not_eq_true', Bool.eq_false_iff, ne_eq,
      List.isPrefixOf_iff_prefix]
  constructor
  · intro h name record hrecord
    obtain ⟨hname, hlog, hlast⟩ := hrecord
    have hrow := get?_ofTable_eq_some_iff.2 ⟨hname, record, hlast, rfl⟩
    have hkey : name ∈ (ofTable table).keys := by
      by_contra hkey
      rw [OrderedMap.get?_eq_none hkey] at hrow
      cases hrow
    have hP := h name (List.mem_filter.2 ⟨hkey, (hmark name).2 hlog⟩)
    rw [rowOrNeutral, hrow] at hP
    exact hP
  · intro h name hmem
    obtain ⟨hkey, hlog⟩ := List.mem_filter.1 hmem
    obtain ⟨row, hrow⟩ := OrderedMap.exists_get?_of_mem_keys hkey
    obtain ⟨hname, record, hlast, rfl⟩ := get?_ofTable_eq_some_iff.1 hrow
    rw [rowOrNeutral, hrow]
    exact h name record ⟨hname, (hmark name).1 hlog, hlast⟩

end SummaryTable

end ReferenceDraws
