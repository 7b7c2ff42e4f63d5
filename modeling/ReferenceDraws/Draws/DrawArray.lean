import ReferenceDraws.Draws.Series
import ReferenceDraws.Draws.ShapeFault

/-!
# Arrays of draws

The merged draws of a variable, all chains one after another: a number per draw, or a row of
a fixed width per draw. The numbers stand row after row in one buffer, whose size is the
number of draws times the width.

* `DrawArray.size_eq`: the shape of every array, whatever it was made from;
* `DrawArray.row`: a row of the buffer.
-/

namespace ReferenceDraws

/-- The merged draws of a variable. -/
structure DrawArray where
  /-- The numbers, row after row. -/
  values : Array Double
  /-- The number of draws. -/
  totalDraws : Nat
  /-- The width of a row; none for a variable that is a number. -/
  dim : Option Nat
  /-- Rows fill the buffer. -/
  size_eq : values.size = totalDraws * dim.getD 1
deriving DecidableEq

namespace DrawArray

/-- A number per draw. -/
def scalar (values : List Double) : DrawArray where
  values := values.toArray
  totalDraws := values.length
  dim := none
  size_eq := by simp

/-- The first row, counted from `start`, that is not of a width. -/
def firstRagged (dim : Nat) : Nat → List (List Double) → Option (Nat × Nat)
  | _, [] => none
  | start, row :: rest =>
    if row.length = dim then firstRagged dim (start + 1) rest else some (start, row.length)

theorem length_flatten_of_firstRagged {dim start : Nat} {rows : List (List Double)}
    (h : firstRagged dim start rows = none) : rows.flatten.length = rows.length * dim := by
  induction rows generalizing start with
  | nil => simp
  | cons row rest ih =>
    unfold firstRagged at h
    split at h
    · next hrow =>
      rw [List.flatten_cons, List.length_append, ih h, hrow, List.length_cons, Nat.succ_mul,
        Nat.add_comm]
    · cases h

/-- The width that the first row sets. -/
def widthOf (rows : List (List Double)) : Nat := (rows.head?.map List.length).getD 0

/-- A row per draw; all rows are as wide as the first. -/
def ofRows (rows : List (List Double)) : Except ShapeFault DrawArray :=
  match h : firstRagged (widthOf rows) 0 rows with
  | some (row, found) => .error (.raggedRows row (widthOf rows) found)
  | none => .ok {
      values := rows.flatten.toArray
      totalDraws := rows.length
      dim := some (widthOf rows)
      size_eq := by simpa using length_flatten_of_firstRagged h }

/-- A buffer of rows of a positive width. -/
def ofRowMajor (values : List Double) (dim : Nat) : Except ShapeFault DrawArray :=
  if h : dim = 0 ∨ values.length % dim ≠ 0 then .error (.unevenBuffer values.length dim)
  else .ok {
      values := values.toArray
      totalDraws := values.length / dim
      dim := some dim
      size_eq := by
        simp only [not_or, Decidable.not_not] at h
        simpa using (Nat.div_mul_cancel (Nat.dvd_of_mod_eq_zero h.2)).symm }

/-- The numbers from one position of the buffer up to another. -/
def slice (a : DrawArray) (start stop : Nat) : List Double := (a.values.extract start stop).toList

/-- The row of a draw; a single number for a variable that is one. -/
def row (a : DrawArray) (r : Nat) : List Double :=
  a.slice (r * a.dim.getD 1) ((r + 1) * a.dim.getD 1)

/-- The whole array as a series. -/
def series (a : DrawArray) : Series :=
  match a.dim with
  | none => .scalar a.values.toList
  | some _ => .rows ((List.range a.totalDraws).map a.row)

/-! ## JSON -/

/-- An array as a value. -/
def toJson (a : DrawArray) : Json := a.series.toJson

/-- An array from draws of its shape. -/
def ofSeries : Series → Except ShapeFault DrawArray
  | .scalar values => .ok (scalar values)
  | .rows rs => ofRows rs

/-- Reads an array below `depth` open brackets. -/
def decode (depth : Nat) : Json.Decoder DrawArray := fun r => do
  let draws ← Series.decodeAs "ArrayRepr" depth r
  match ofSeries draws with
  | .ok a => pure a
  | .error f => throw (.mismatch (.refused f.failure.display))

end DrawArray

/-! ## Matrices -/

/-- Merged draws by variable, sorted by name. -/
abbrev DrawMatrix := SortedMap DrawArray

namespace DrawMatrix

/-- A matrix as a value. -/
def toJson (m : DrawMatrix) : Json := .ofSortedMap DrawArray.toJson m

/-- Reads a matrix: an object with an array of draws per variable. -/
def decode : Json.Decoder DrawMatrix := Json.Decoder.sortedMap (DrawArray.decode 1)

/-- Reads a matrix from bytes. -/
def ofBytes (bytes : List UInt8) : Except Failure DrawMatrix :=
  (Json.decodeBytes decode bytes).mapError fun fault =>
    ⟨.input, .new "pdbref_draws.matrix_parse" fault.message⟩

end DrawMatrix

end ReferenceDraws
