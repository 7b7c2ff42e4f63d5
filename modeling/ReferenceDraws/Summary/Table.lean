import ReferenceDraws.Summary.Csv
import ReferenceDraws.Failure

/-!
# Summary tables

The convergence statistics that the sampler reports, a row per parameter in the sampler's order.

* `SummaryRow.ofColumns`: a row from named columns, with defaults for absent ones;
* `SummaryTable.ofCsv`: a table from the sampler's summary file.
-/

namespace ReferenceDraws

/-- The statistics of a parameter. -/
structure SummaryRow where
  /-- Bulk effective sample size. -/
  essBulk : Double := .zero
  /-- Tail effective sample size. -/
  essTail : Double := .zero
  /-- Potential scale reduction factor. -/
  rHat : Double := .one
deriving DecidableEq, Inhabited

namespace SummaryRow

/-- The statistics of a parameter of which nothing is reported. -/
def neutral : SummaryRow := {}

/-- The value under the last column of a name. -/
def lastOf (name : String) (columns : List (String × Double)) : Option Double :=
  columns.reverse.lookup name

/-- A row from named columns. A column `N_Eff` stands for both effective sample sizes and wins
over their own columns; the last of several columns of a name counts. -/
def ofColumns (columns : List (String × Double)) : SummaryRow :=
  let size := lastOf "N_Eff" columns
  { essBulk := (size <|> lastOf "ESS_bulk" columns).getD neutral.essBulk
    essTail := (size <|> lastOf "ESS_tail" columns).getD neutral.essTail
    rHat := (lastOf "R_hat" columns).getD neutral.rHat }

/-- A row as a value. -/
def toJson (r : SummaryRow) : Json :=
  .object [("ess_bulk", .ofDouble r.essBulk), ("ess_tail", .ofDouble r.essTail),
    ("r_hat", .ofDouble r.rHat)]

/-- Reads a row. -/
def decode : Json.Decoder SummaryRow :=
  ((Json.RecordDecoder.map SummaryRow.mk
      (.defaulted "ess_bulk" neutral.essBulk Json.Decoder.double))
    |>.and (.defaulted "ess_tail" neutral.essTail Json.Decoder.double)
    |>.and (.defaulted "r_hat" neutral.rHat Json.Decoder.double)).read "SummaryRow"

end SummaryRow

/-- Rows by parameter name. -/
abbrev SummaryTable := OrderedMap String SummaryRow

namespace SummaryTable

/-- What the names of log densities start with; they are no parameters. -/
def logDensityMark : String := "lp__"

/-- Whether a name is one of a log density. -/
def isLogDensity (name : String) : Bool := logDensityMark.toList.isPrefixOf name.toList

/-- The parameters in table order, without log densities. -/
def parameterNames (t : SummaryTable) : List String := t.keys.filter (!isLogDensity ·)

/-- The row of a parameter, or the neutral one. -/
def rowOrNeutral (t : SummaryTable) (name : String) : SummaryRow := (t.get? name).getD .neutral

/-! ## CSV -/

/-- The columns of a record after the first whose cells are numbers. -/
def numericColumns (header record : List String) : List (String × Double) :=
  ((header.zip record).drop 1).filterMap fun (column, cell) =>
    (Double.ofString? cell).map (column, ·)

/-- Enters a record: its first cell is the parameter, and a record without one is skipped. -/
def enter (header : List String) (t : SummaryTable) (record : List String) : SummaryTable :=
  match record with
  | name :: _ =>
    if name.isEmpty then t else t.insert name (.ofColumns (numericColumns header record))
  | [] => t

/-- The rows of a table of text. -/
def ofTable (table : Csv.Table) : SummaryTable := table.records.foldl (enter table.header) .empty

/-- The failure of a summary that is no table. -/
def csvFailure : Csv.Fault → Failure
  | .header => ⟨.input, .new "pdbref_diag.summary_header" "the header is not valid text"⟩
  | .record index =>
    ⟨.input, .of "pdbref_diag.summary_record" "a record is not valid text or of another length"
      [("record", toString index)]⟩

/-- Reads the summary of a sampler. -/
def ofCsv (bytes : List UInt8) : Except Failure SummaryTable :=
  match Csv.read bytes with
  | .ok table => .ok (ofTable table)
  | .error fault => .error (csvFailure fault)

/-! ## JSON -/

/-- A table as a value. -/
def toJson (t : SummaryTable) : Json := .ofOrderedMap SummaryRow.toJson t

/-- Reads a table. -/
def decode : Json.Decoder SummaryTable := Json.Decoder.orderedMap SummaryRow.decode

end SummaryTable

end ReferenceDraws
