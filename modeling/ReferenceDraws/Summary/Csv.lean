import ReferenceDraws.Text.Blank
import ReferenceDraws.Text.Utf8

/-!
# Comma-separated tables

A table is a header and records of as many cells. Cells are separated by commas and may stand
in double quotes, within which a doubled quote is one and commas and line breaks are text.
Blanks around a cell do not count. Lines that start with `#` and empty lines are skipped.

* `Csv.split`: the cells of every record, as bytes;
* `Csv.read`: the table, or the first record that is no text or not as long as the header.
-/

namespace ReferenceDraws.Csv

/-- Where a position of the text lies. -/
inductive Place where
  /-- Before a record. -/
  | outside
  /-- In a line that is skipped. -/
  | comment
  /-- At the first byte of a cell. -/
  | cellStart
  /-- In a cell, outside quotes. -/
  | cell
  /-- In a cell, inside quotes. -/
  | quoted
  /-- After a quote inside quotes: the end of the quotes or a quote as text. -/
  | afterQuote
deriving DecidableEq

/-- What is known of the record at a position: the place, the cells before, last cell first, and
the bytes of the current cell, last byte first. -/
structure Progress where
  place : Place
  cells : List (List UInt8) := []
  current : List UInt8 := []

/-- The bytes that matter. -/
def comma : UInt8 := 0x2c

@[inherit_doc comma] def quote : UInt8 := 0x22

@[inherit_doc comma] def hash : UInt8 := 0x23

@[inherit_doc comma] def lineFeed : UInt8 := 0x0a

/-- Whether a byte ends a record. -/
def endsRecord (b : UInt8) : Bool := b = lineFeed || b = 0x0d

namespace Progress

/-- The record that ends here. -/
def record (p : Progress) : List (List UInt8) := (p.current.reverse :: p.cells).reverse

/-- A byte of the current cell. -/
def push (p : Progress) (place : Place) (b : UInt8) : Progress :=
  { p with place, current := b :: p.current }

/-- A byte that separates cells, ends the record or belongs to an unquoted cell. -/
def plain (p : Progress) (b : UInt8) : Progress × Option (List (List UInt8)) :=
  if b = comma then (⟨.cellStart, p.current.reverse :: p.cells, []⟩, none)
  else if endsRecord b then ({ place := .outside }, some p.record)
  else (p.push .cell b, none)

/-- A byte at the start of a cell. -/
def atCellStart (p : Progress) (b : UInt8) : Progress × Option (List (List UInt8)) :=
  if b = quote then ({ p with place := .quoted }, none) else p.plain b

/-- The progress after a byte, and the record that it ends, if any. -/
def step (p : Progress) (b : UInt8) : Progress × Option (List (List UInt8)) :=
  match p.place with
  | .outside =>
    if endsRecord b then (p, none)
    else if b = hash then ({ p with place := .comment }, none)
    else p.atCellStart b
  | .comment => if b = lineFeed then ({ place := .outside }, none) else (p, none)
  | .cellStart => p.atCellStart b
  | .cell => p.plain b
  | .quoted =>
    if b = quote then ({ p with place := .afterQuote }, none) else (p.push .quoted b, none)
  | .afterQuote => if b = quote then (p.push .quoted b, none) else p.plain b

end Progress

/-- The records of a text from a position on. A text that ends inside a record or a comment ends
that record; a comment counts as a record of one empty cell then. -/
def splitFrom (p : Progress) : List UInt8 → List (List (List UInt8))
  | [] => if p.place = .outside then [] else [p.record]
  | b :: rest =>
    match p.step b with
    | (p, some record) => record :: splitFrom p rest
    | (p, none) => splitFrom p rest

/-- A text without the byte order mark that may start it. -/
def dropMark : List UInt8 → List UInt8
  | 0xef :: 0xbb :: 0xbf :: rest => rest
  | bytes => bytes

/-- The records of a text, the header among them. -/
def split (bytes : List UInt8) : List (List (List UInt8)) :=
  splitFrom { place := .outside } (dropMark bytes)

/-- A header and records of as many cells. -/
structure Table where
  header : List String
  records : List (List String)
deriving DecidableEq

/-- Why a text is no table. -/
inductive Fault where
  /-- The header is not Unicode text. -/
  | header
  /-- The record, counted from zero, is not Unicode text or not as long as the header. -/
  | record (index : Nat)
deriving DecidableEq

/-- The cells of a record as trimmed text. -/
def texts? (cells : List (List UInt8)) : Option (List String) :=
  cells.mapM fun cell => (Text.decode? cell).map Text.trim

/-- Records from an index on, each of a number of cells. -/
def readRecords (width : Nat) : Nat → List (List (List UInt8)) → Except Fault (List (List String))
  | _, [] => .ok []
  | index, cells :: rest =>
    match if cells.length = width then texts? cells else none with
    | none => .error (.record index)
    | some record => (readRecords width (index + 1) rest).map (record :: ·)

/-- Reads a table. -/
def read (bytes : List UInt8) : Except Fault Table :=
  match split bytes with
  | [] => .ok ⟨[], []⟩
  | cells :: rest =>
    match texts? cells with
    | none => .error .header
    | some header => (readRecords cells.length 0 rest).map (Table.mk header)

end ReferenceDraws.Csv
