import Mathlib.Data.List.InsertIdx
import Mathlib.Logic.Relation
import ReferenceDraws.Proofs.Outcome
import ReferenceDraws.Proofs.Related
import ReferenceDraws.Proofs.Summary.Table

/-!
# What a summary table depends on

Only the names of the records and the numbers under four columns enter a
summary table, so that a file can be edited in many ways without changing
what is read of it.

* Rows.  `IsRowOf` says which columns the statistics of a record are taken
  from, and `keys_ofTable` in which order the names come.
* Numbers.  `Agree` says that two records have the same name and the same
  numbers under the columns that count, and `ofTable_congr` that tables of such
  records are one summary.
* Edits.  `Edit` lists the changes: another order of the columns, one more
  column, other cells that are no numbers.  Each of them keeps the records in
  agreement.
* Files.  `ofCsv_reads_names_and_statistics` says the same of files.
-/

namespace ReferenceDraws

open List (Forall₂)

namespace SummaryTable

variable {header header' record record' : List String}

/-! ## Rows -/

/-- The statistics of a record, with the columns that they are taken from. -/
structure IsRowOf (header record : List String) (row : SummaryRow) : Prop where
  essBulk : FirstReported header record .zero ["N_Eff", "ESS_bulk"] row.essBulk
  essTail : FirstReported header record .zero ["N_Eff", "ESS_tail"] row.essTail
  rHat : FirstReported header record .one ["R_hat"] row.rHat

/-- A row is made of the statistics of its record. -/
theorem isRowOf_iff {row : SummaryRow} :
    IsRowOf header record row ↔ row = .ofColumns (numericColumns header record) := by
  constructor
  · rintro ⟨hbulk, htail, hrhat⟩
    rw [firstReported_iff, findSome?_pair] at hbulk htail
    rw [firstReported_iff, List.findSome?_singleton] at hrhat
    obtain ⟨bulk, tail, rhat⟩ := row
    obtain rfl := hbulk
    obtain rfl := htail
    obtain rfl := hrhat
    rfl
  · rintro rfl
    constructor
    · rw [firstReported_iff, findSome?_pair]
      rfl
    · rw [firstReported_iff, findSome?_pair]
      rfl
    · rw [firstReported_iff, List.findSome?_singleton]
      rfl

/-- The names of a table are the names of its records, each where it first
occurs. -/
theorem keys_ofTable (table : Csv.Table) :
    (ofTable table).keys =
      ((table.records.filterMap List.head?).filter (· ≠ "")).eraseDups := by
  have hname : ∀ record, (rowOf? table.header record).map Prod.fst =
      record.head?.filter (· ≠ "") := by
    intro record
    cases record with
    | nil => rfl
    | cons name rest =>
      by_cases hempty : name = "" <;> simp [rowOf?, hempty, Option.filter]
  rw [SummaryTable.ofTable_eq, OrderedMap.keys_ofList, List.map_filterMap, List.filter_filterMap]
  simp only [hname]

/-! ## Numbers -/

/-- The columns that are statistics. -/
def recognised : List String := ["N_Eff", "ESS_bulk", "ESS_tail", "R_hat"]

/-- The numbers under a column, from left to right. -/
def numbersUnder (column : String) (cells : List (String × String)) : List Double :=
  cells.filterMap fun c => if c.1 = column then Double.ofString? c.2 else none

@[simp] theorem numbersUnder_nil (column : String) : numbersUnder column [] = [] := rfl

@[simp] theorem numbersUnder_cons (column : String) (c : String × String)
    (cells : List (String × String)) : numbersUnder column (c :: cells) =
      (if c.1 = column then (Double.ofString? c.2).toList else []) ++
        numbersUnder column cells := by
  rw [numbersUnder, List.filterMap_cons]
  by_cases hcolumn : c.1 = column
  · rw [if_pos hcolumn, if_pos hcolumn]
    cases Double.ofString? c.2 <;> rfl
  · rw [if_neg hcolumn, if_neg hcolumn]
    rfl

theorem lastOf_eq_getLast? (column : String) (cells : List (String × String)) :
    SummaryRow.lastOf column (cells.filterMap fun c => (Double.ofString? c.2).map (c.1, ·)) =
      (numbersUnder column cells).getLast? := by
  induction cells using List.reverseRecOn with
  | nil => rfl
  | append_singleton cells c ih =>
    rw [SummaryRow.lastOf, numbersUnder] at ih ⊢
    rw [List.filterMap_append, List.filterMap_append]
    by_cases hcolumn : c.1 = column
    · cases hcell : Double.ofString? c.2 with
      | none => simpa [hcell] using ih
      | some x => simp [hcell, hcolumn]
    · cases hcell : Double.ofString? c.2 with
      | none => simpa [hcell, hcolumn] using ih
      | some x =>
        have hne : (column == c.1) = false := beq_eq_false_iff_ne.2 (Ne.symm hcolumn)
        simpa [hcell, hcolumn, List.lookup_cons, hne] using ih

/-- The last number under a column is the one that counts. -/
theorem lastOf_numericColumns_eq (column : String) (header record : List String) :
    SummaryRow.lastOf column (numericColumns header record) =
      (numbersUnder column (header.tail.zip record.tail)).getLast? := by
  rw [numericColumns, List.drop_one, List.tail_zip]
  exact lastOf_eq_getLast? column _

/-- Two records have one name, and the same numbers under every column that is
a statistic. -/
structure Agree (header header' record record' : List String) : Prop where
  head_eq : record.head? = record'.head?
  numbers_eq : ∀ column ∈ recognised,
    numbersUnder column (header.tail.zip record.tail) =
      numbersUnder column (header'.tail.zip record'.tail)

theorem Agree.ofColumns_eq (h : Agree header header' record record') :
    SummaryRow.ofColumns (numericColumns header record) =
      SummaryRow.ofColumns (numericColumns header' record') := by
  have hlast : ∀ column ∈ recognised,
      SummaryRow.lastOf column (numericColumns header record) =
        SummaryRow.lastOf column (numericColumns header' record') := by
    intro column hcolumn
    rw [lastOf_numericColumns_eq, lastOf_numericColumns_eq, h.numbers_eq column hcolumn]
  simp only [SummaryRow.ofColumns, hlast "N_Eff" (by simp [recognised]),
    hlast "ESS_bulk" (by simp [recognised]), hlast "ESS_tail" (by simp [recognised]),
    hlast "R_hat" (by simp [recognised])]

theorem Agree.rowOf?_eq (h : Agree header header' record record') :
    rowOf? header record = rowOf? header' record' := by
  ext e
  rw [rowOf?_eq_some_iff, rowOf?_eq_some_iff, h.head_eq, h.ofColumns_eq]

/-- Tables whose records agree one by one are the same summary. -/
theorem ofTable_congr {table table' : Csv.Table}
    (h : Forall₂ (Agree table.header table'.header) table.records table'.records) :
    ofTable table = ofTable table' := by
  obtain ⟨header, records⟩ := table
  obtain ⟨header', records'⟩ := table'
  dsimp only at h
  rw [ofTable_eq, ofTable_eq]
  congr 1
  induction h with
  | nil => rfl
  | cons hrecord _ ih => rw [List.filterMap_cons, List.filterMap_cons, hrecord.rowOf?_eq, ih]

/-! ## Columns in another order -/

/-- Cells in another order, the first aside. -/
def rearrange (order : List Nat) : List String → List String
  | [] => []
  | first :: rest => first :: order.filterMap (rest[·]?)

theorem tail_rearrange (order : List Nat) (cells : List String) :
    (rearrange order cells).tail = order.filterMap (cells.tail[·]?) := by
  cases cells with
  | nil => simp [rearrange]
  | cons first rest => rfl

theorem head?_rearrange (order : List Nat) (cells : List String) :
    (rearrange order cells).head? = cells.head? := by
  cases cells <;> rfl

/-- Two lists that are rearranged alike keep their pairs. -/
theorem zip_filterMap_getElem? {α β : Type} {as : List α} {bs : List β}
    (hlength : as.length = bs.length) (order : List Nat) :
    (order.filterMap (as[·]?)).zip (order.filterMap (bs[·]?)) =
      order.filterMap ((as.zip bs)[·]?) := by
  induction order with
  | nil => rfl
  | cons i order ih =>
    rw [List.filterMap_cons, List.filterMap_cons, List.filterMap_cons]
    by_cases hi : i < as.length
    · have hi' : i < bs.length := hlength ▸ hi
      have hzip : i < (as.zip bs).length := by
        rw [List.length_zip]
        omega
      rw [List.getElem?_eq_getElem hi, List.getElem?_eq_getElem hi',
        List.getElem?_eq_getElem hzip]
      simp [ih]
    · rw [List.getElem?_eq_none (by omega), List.getElem?_eq_none (by omega),
        List.getElem?_eq_none (by simp; omega)]
      exact ih

theorem filterMap_getElem?_range {α : Type} (as : List α) :
    (List.range as.length).filterMap (as[·]?) = as := by
  induction as with
  | nil => rfl
  | cons a as ih =>
    rw [List.length_cons, List.range_succ_eq_map, List.filterMap_cons, List.filterMap_map]
    simpa [Function.comp_def] using ih

/-- An order of all places rearranges a list. -/
theorem perm_filterMap_getElem? {α : Type} {as : List α} {order : List Nat}
    (horder : order.Perm (List.range as.length)) : (order.filterMap (as[·]?)).Perm as := by
  have hperm := horder.filterMap (as[·]?)
  rwa [filterMap_getElem?_range] at hperm

theorem length_numbersUnder_le (column : String) (cells : List (String × String)) :
    (numbersUnder column cells).length ≤ (cells.map Prod.fst).count column := by
  induction cells with
  | nil => simp
  | cons c cells ih =>
    have hone : (Double.ofString? c.2).toList.length ≤ 1 := by
      cases Double.ofString? c.2 <;> simp
    rw [numbersUnder_cons, List.length_append, List.map_cons, List.count_cons]
    by_cases hcolumn : c.1 = column
    · rw [if_pos hcolumn, if_pos (beq_iff_eq.2 hcolumn)]
      omega
    · simpa [hcolumn] using ih

theorem eq_of_perm {α : Type} {as bs : List α} (h : as.Perm bs) (hlength : bs.length ≤ 1) :
    as = bs := by
  match bs with
  | [] => exact h.eq_nil
  | [b] => exact List.perm_singleton.1 h
  | _ :: _ :: _ => simp at hlength

/-- Columns in another order hold the same numbers where no two of them are the
same statistic. -/
theorem agree_rearrange {order : List Nat}
    (hwidth : record.length = header.length)
    (horder : order.Perm (List.range (header.length - 1)))
    (honce : ∀ column ∈ recognised, header.tail.count column ≤ 1) :
    Agree header (rearrange order header) record (rearrange order record) where
  head_eq := (head?_rearrange order record).symm
  numbers_eq column hcolumn := by
    have hlength : header.tail.length = record.tail.length := by
      rw [List.length_tail, List.length_tail, hwidth]
    have hnames : (header.tail.zip record.tail).map Prod.fst = header.tail :=
      List.map_fst_zip (Nat.le_of_eq hlength)
    have hperm : (order.filterMap ((header.tail.zip record.tail)[·]?)).Perm
        (header.tail.zip record.tail) := by
      refine perm_filterMap_getElem? ?_
      rwa [List.length_zip, ← hlength, Nat.min_self, List.length_tail]
    rw [tail_rearrange, tail_rearrange, zip_filterMap_getElem? hlength]
    -- There is at most one number under the column, and so only one order of them.
    refine (eq_of_perm (hperm.filterMap _) ?_).symm
    refine Nat.le_trans (length_numbersUnder_le column _) ?_
    rw [hnames]
    exact honce column hcolumn

/-! ## One more column -/

theorem numbersUnder_zip_insertIdx {column name cell : String} (hname : name ≠ column)
    (place : Nat) (header record : List String) :
    numbersUnder column ((header.insertIdx place name).zip (record.insertIdx place cell)) =
      numbersUnder column (header.zip record) := by
  induction place generalizing header record with
  | zero => simp [hname]
  | succ place ih =>
    cases header with
    | nil => simp
    | cons h header =>
      cases record with
      | nil => simp
      | cons r record => simp [ih header record]

/-- A column that is no statistic adds no numbers. -/
theorem agree_insertIdx {place : Nat} {column cell : String}
    (hplace : 0 < place) (hcolumn : column ∉ recognised) :
    Agree header (header.insertIdx place column) record (record.insertIdx place cell) := by
  obtain ⟨place, rfl⟩ : ∃ k, place = k + 1 := ⟨place - 1, by omega⟩
  constructor
  · cases record <;> rfl
  · intro name hname
    have hne : column ≠ name := fun h => hcolumn (h ▸ hname)
    cases header with
    | nil => simp
    | cons h header =>
      cases record with
      | nil => simp
      | cons r record => exact (numbersUnder_zip_insertIdx hne place header record).symm

/-! ## Other cells -/

/-- A cell may stand for another one: it is the same, or neither is a number. -/
def Interchangeable (cell cell' : String) : Prop :=
  cell = cell' ∨ Double.ofString? cell = none ∧ Double.ofString? cell' = none

theorem numbersUnder_zip_congr (column : String) {cells cells' : List String}
    (h : Forall₂ Interchangeable cells cells') (header : List String) :
    numbersUnder column (header.zip cells) = numbersUnder column (header.zip cells') := by
  induction h generalizing header with
  | nil => rfl
  | @cons cell cell' cells cells' hcell _ ih =>
    cases header with
    | nil => rfl
    | cons name header =>
      have hnumber : Double.ofString? cell = Double.ofString? cell' := by
        rcases hcell with rfl | ⟨hnone, hnone'⟩
        · rfl
        · rw [hnone, hnone']
      rw [List.zip_cons_cons, List.zip_cons_cons, numbersUnder_cons, numbersUnder_cons, hnumber,
        ih header]

/-- Cells that are no numbers do not matter. -/
theorem agree_interchangeable
    (hhead : record.head? = record'.head?)
    (hcells : Forall₂ Interchangeable record.tail record'.tail) :
    Agree header header record record' :=
  ⟨hhead, fun column _ => numbersUnder_zip_congr column hcells header.tail⟩

/-! ## Edits -/

/-- Changes of a table of text behind its first column. -/
inductive Edit : Csv.Table → Csv.Table → Prop
  /-- The columns come in another order, where no two columns are the same
  statistic. -/
  | permute (table : Csv.Table) (order : List Nat)
    (hwidth : ∀ record ∈ table.records, record.length = table.header.length)
    (horder : order.Perm (List.range (table.header.length - 1)))
    (honce : ∀ column ∈ recognised, table.header.tail.count column ≤ 1) :
    Edit table ⟨rearrange order table.header, table.records.map (rearrange order)⟩
  /-- One more column, which is no statistic. -/
  | insert (table : Csv.Table) (place : Nat) (column : String) (records : List (List String))
    (hplace : 0 < place) (hcolumn : column ∉ recognised)
    (hrecords : Forall₂ (fun record record' => ∃ cell, record' = record.insertIdx place cell)
      table.records records) :
    Edit table ⟨table.header.insertIdx place column, records⟩
  /-- Other cells that are no numbers, in the place of such cells. -/
  | replace (table : Csv.Table) (records : List (List String))
    (hrecords : Forall₂ (fun record record' => record.head? = record'.head? ∧
      Forall₂ Interchangeable record.tail record'.tail) table.records records) :
    Edit table ⟨table.header, records⟩

/-- An edit leaves the summary as it is. -/
theorem Edit.ofTable_eq {table table' : Csv.Table} (h : Edit table table') :
    ofTable table = ofTable table' := by
  refine ofTable_congr ?_
  cases h with
  | permute order hwidth horder honce =>
    rw [List.forall₂_map_right_iff, List.forall₂_same]
    exact fun record hrecord => agree_rearrange (hwidth record hrecord) horder honce
  | insert place column records hplace hcolumn hrecords =>
    refine hrecords.imp fun record record' => ?_
    rintro ⟨cell, rfl⟩
    exact agree_insertIdx hplace hcolumn
  | replace records hrecords =>
    exact hrecords.imp fun record record' h => agree_interchangeable h.1 h.2

/-- Edits one after another, in either direction, leave the summary as it is. -/
theorem ofTable_eq_of_edits {table table' : Csv.Table} (h : Relation.EqvGen Edit table table') :
    ofTable table = ofTable table' := by
  induction h with
  | rel table table' h => exact h.ofTable_eq
  | refl table => rfl
  | symm table table' _ ih => exact ih.symm
  | trans table table' table'' _ _ ih ih' => exact ih.trans ih'

end SummaryTable

/-! ## Files -/

namespace Csv

theorem length_of_texts? {cells : List (List UInt8)} {texts : List String}
    (h : texts? cells = some texts) : texts.length = cells.length :=
  (mapM_eq_some_iff.1 h).length_eq.symm

theorem length_of_readRecords {width index : Nat} {cells : List (List (List UInt8))}
    {records : List (List String)} (h : readRecords width index cells = .ok records) :
    ∀ record ∈ records, record.length = width := by
  induction cells generalizing index records with
  | nil =>
    cases h
    simp
  | cons first rest ih =>
    rw [readRecords] at h
    split at h
    · cases h
    · rename_i record hrecord
      obtain ⟨more, hmore, rfl⟩ := map_eq_ok_iff.1 h
      obtain ⟨hwidth, htexts⟩ := Option.ite_none_right_eq_some.1 hrecord
      exact List.forall_mem_cons.2 ⟨(length_of_texts? htexts).trans hwidth, ih hmore⟩

/-- The records of a file are as long as its header. -/
theorem length_of_read {bytes : List UInt8} {table : Table} (h : read bytes = .ok table) :
    ∀ record ∈ table.records, record.length = table.header.length := by
  rw [read] at h
  split at h
  · cases h
    simp
  · split at h
    · cases h
    · rename_i header hheader
      obtain ⟨records, hrecords, rfl⟩ := map_eq_ok_iff.1 h
      rw [length_of_texts? hheader]
      exact length_of_readRecords hrecords

end Csv

namespace SummaryTable

theorem ofCsv_of_read {bytes : List UInt8} {table : Csv.Table} (h : Csv.read bytes = .ok table) :
    ofCsv bytes = .ok (ofTable table) := by
  rw [ofCsv, h]

/-- A file is read as the table of the names and statistics of its records: a
name stands where it first occurs, and under it the row of its last record.
Edits that leave these alone leave the table as it is. -/
theorem ofCsv_reads_names_and_statistics :
    (∀ bytes table, Csv.read bytes = .ok table →
      (∀ record ∈ table.records, record.length = table.header.length) ∧
      ∃ t, ofCsv bytes = .ok t ∧
        t.keys = ((table.records.filterMap List.head?).filter (· ≠ "")).eraseDups ∧
        ∀ name row, t.get? name = some row ↔ name ≠ "" ∧
          ∃ record, IsLast (·.head? = some name) table.records record ∧
            IsRowOf table.header record row) ∧
    ∀ bytes bytes' table table', Csv.read bytes = .ok table → Csv.read bytes' = .ok table' →
      Relation.EqvGen Edit table table' → ofCsv bytes = ofCsv bytes' := by
  constructor
  · intro bytes table hread
    refine ⟨Csv.length_of_read hread, ofTable table, ofCsv_of_read hread, keys_ofTable table, ?_⟩
    intro name row
    simp only [get?_ofTable_eq_some_iff, isRowOf_iff]
  · intro bytes bytes' table table' hread hread' hedits
    rw [ofCsv_of_read hread, ofCsv_of_read hread', ofTable_eq_of_edits hedits]

/-- A summary with two records of a parameter. -/
def plainBytes : List UInt8 := Text.encode
  "name,Mean,N_Eff,ESS_bulk,R_hat\nmu,0.1,400,820,1.1\ntheta,0.5,7,3,1\nmu,0.2,n/a,90,\n"

/-- Its cells. -/
def plainTable : Csv.Table where
  header := ["name", "Mean", "N_Eff", "ESS_bulk", "R_hat"]
  records := [["mu", "0.1", "400", "820", "1.1"], ["theta", "0.5", "7", "3", "1"],
    ["mu", "0.2", "n/a", "90", ""]]

/-- The same summary with its columns turned round, with one more column, and
with other cells that are no numbers. -/
def editedBytes : List UInt8 := Text.encode <|
  "# edited\nname, R_hat, StdDev, ESS_bulk, N_Eff, Mean\nmu, 1.1, 3, 820, 400, 0.1\n" ++
    "theta, 1,\"a,b\", 3, 7, 0.5\nmu, -, 0, 90, , 0.2\n"

/-- Its cells. -/
def editedTable : Csv.Table where
  header := ["name", "R_hat", "StdDev", "ESS_bulk", "N_Eff", "Mean"]
  records := [["mu", "1.1", "3", "820", "400", "0.1"], ["theta", "1", "a,b", "3", "7", "0.5"],
    ["mu", "-", "0", "90", "", "0.2"]]

theorem edits_plainTable : Relation.EqvGen Edit plainTable editedTable := by
  have hpermute := Edit.permute plainTable [3, 2, 1, 0] (by decide) (by decide) (by decide)
  have hinsert := Edit.insert
    ⟨["name", "R_hat", "ESS_bulk", "N_Eff", "Mean"], [["mu", "1.1", "820", "400", "0.1"],
      ["theta", "1", "3", "7", "0.5"], ["mu", "", "90", "n/a", "0.2"]]⟩ 2 "StdDev"
    [["mu", "1.1", "3", "820", "400", "0.1"], ["theta", "1", "a,b", "3", "7", "0.5"],
      ["mu", "", "0", "90", "n/a", "0.2"]] (by decide) (by decide)
    (.cons ⟨"3", rfl⟩ (.cons ⟨"a,b", rfl⟩ (.cons ⟨"0", rfl⟩ .nil)))
  have hsame : ∀ cells, Forall₂ Interchangeable cells cells :=
    fun cells => List.forall₂_same.2 fun cell _ => .inl rfl
  have hreplace := Edit.replace
    ⟨["name", "R_hat", "StdDev", "ESS_bulk", "N_Eff", "Mean"],
      [["mu", "1.1", "3", "820", "400", "0.1"], ["theta", "1", "a,b", "3", "7", "0.5"],
        ["mu", "", "0", "90", "n/a", "0.2"]]⟩ editedTable.records
    (.cons ⟨rfl, hsame _⟩ (.cons ⟨rfl, hsame _⟩ (.cons ⟨rfl,
      .cons (.inr (by decide)) (.cons (.inl rfl) (.cons (.inl rfl) (.cons (.inr (by decide))
        (.cons (.inl rfl) .nil))))⟩ .nil)))
  exact .trans _ _ _ (.rel _ _ hpermute) (.trans _ _ _ (.rel _ _ hinsert) (.rel _ _ hreplace))

theorem ofCsv_reads_names_and_statistics_edited :
    Csv.read plainBytes = .ok plainTable ∧ Csv.read editedBytes = .ok editedTable ∧
      (∃ t, ofCsv plainBytes = .ok t ∧ t.keys = ["mu", "theta"]) ∧
      ofCsv plainBytes = ofCsv editedBytes := by
  have hplain : Csv.read plainBytes = .ok plainTable :=
    toOption_eq_some_iff.1 (by decide +kernel)
  have hedited : Csv.read editedBytes = .ok editedTable :=
    toOption_eq_some_iff.1 (by decide +kernel)
  obtain ⟨hread, hedit⟩ := ofCsv_reads_names_and_statistics
  obtain ⟨-, t, ht, hkeys, -⟩ := hread plainBytes plainTable hplain
  exact ⟨hplain, hedited, ⟨t, ht, hkeys⟩,
    hedit plainBytes editedBytes plainTable editedTable hplain hedited edits_plainTable⟩

end SummaryTable

end ReferenceDraws
