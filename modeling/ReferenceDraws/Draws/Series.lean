import ReferenceDraws.Json.Decode

/-!
# Series of draws

The draws of one parameter: a number per iteration, or a row of numbers per iteration for a
whole vector variable. A draw that is no finite number has no JSON number and is written as
null, and null is read as a NaN.

* `Series.ofJson?`: the shape of a value, where numbers are tried before rows.
-/

namespace ReferenceDraws

/-- The draws of a parameter, one entry per iteration. -/
inductive Series where
  /-- A number per iteration. -/
  | scalar (values : List Double)
  /-- A row per iteration. -/
  | rows (values : List (List Double))
deriving DecidableEq

namespace Series

/-- The number of iterations. -/
def size : Series → Nat
  | .scalar values => values.length
  | .rows rs => rs.length

/-- Whether there are no iterations. -/
def isEmpty (s : Series) : Bool := s.size = 0

/-- The numbers, if there is one per iteration. -/
def scalar? : Series → Option (List Double)
  | .scalar values => some values
  | .rows _ => none

/-! ## JSON -/

/-- Draws as a value: an array of numbers or of arrays of numbers. -/
def toJson : Series → Json
  | .scalar values => .ofDoubles values
  | .rows rs => .array (rs.map .ofDoubles)

/-- A draw from a number or null. -/
def draw? : Json → Option Double
  | .null => some Double.nan
  | .number n => some n.toDouble
  | _ => none

/-- What each item of an array is read as. -/
def arrayOf? {α : Type} (read : Json → Option α) : Json → Option (List α)
  | .array items => items.mapM read
  | _ => none

/-- Draws from a value: an array of numbers and nulls, else an array of such arrays. -/
def ofJson? (value : Json) : Option Series :=
  match arrayOf? draw? value with
  | some values => some (.scalar values)
  | none => (arrayOf? (arrayOf? draw?) value).map .rows

/-- Reads draws of a type that messages call `type`, below `depth` open brackets. -/
def decodeAs (type : String) (depth : Nat) : Json.Decoder Series := fun r => do
  let value ← Json.Decoder.whole (Json.Decoder.maxDepth - depth) r
  match ofJson? value with
  | some s => pure s
  | none => throw (.mismatch (.noShape type))

/-- Reads draws below `depth` open brackets. -/
def decode (depth : Nat) : Json.Decoder Series := decodeAs "ParameterDraws" depth

end Series

/-- The draws of a chain by parameter name, in order of request. -/
abbrev ChainDraws := OrderedMap String Series

namespace ChainDraws

/-- The draws of a chain as a value. -/
def toJson (chain : ChainDraws) : Json := .ofOrderedMap Series.toJson chain

/-- Reads the draws of a chain below `depth` open brackets. -/
def decode (depth : Nat) : Json.Decoder ChainDraws :=
  Json.Decoder.orderedMap (Series.decode (depth + 1))

/-- Chains as a value. -/
def listToJson (chains : List ChainDraws) : Json := .array (chains.map toJson)

/-- Reads a list of chains. -/
def decodeList : Json.Decoder (List ChainDraws) := Json.Decoder.list (decode 1)

end ChainDraws

end ReferenceDraws
