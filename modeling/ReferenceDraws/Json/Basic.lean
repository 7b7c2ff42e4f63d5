import ReferenceDraws.Double.Written
import ReferenceDraws.OrderedMap
import ReferenceDraws.SortedMap

/-!
# JSON values

Numbers keep the three kinds that a text tells apart: natural numbers and negative integers of
at most sixty-four bits, and doubles. Members of an object keep their order and may repeat a key.
-/

namespace ReferenceDraws

/-- A number as its text classifies it. -/
inductive Json.Number where
  /-- An integer from zero to `2 ^ 64 - 1`. -/
  | nat (n : UInt64)
  /-- The integer `-n`, from `-2 ^ 63` to minus one. -/
  | negative (n : UInt64)
  /-- Any other number. -/
  | double (d : Double)
deriving DecidableEq, Inhabited

/-- The double nearest to a number. -/
def Json.Number.toDouble : Json.Number → Double
  | .nat n => Double.ofNat n.toNat
  | .negative n => Double.ofRatio true n.toNat 1
  | .double d => d

/-- A JSON value. -/
inductive Json where
  | null
  | bool (value : Bool)
  | number (value : Json.Number)
  | string (value : String)
  | array (items : List Json)
  | object (members : List (String × Json))
deriving Inhabited

namespace Json

/-- A natural number of sixty-four bits as a value. -/
def ofUInt64 (n : UInt64) : Json := .number (.nat n)

/-- A double as a value; one that is not finite has no number and is null. -/
def ofDouble (d : Double) : Json := if d.isFinite then .number (.double d) else .null

/-- A list of strings as a value. -/
def ofStrings (ss : List String) : Json := .array (ss.map .string)

/-- A list of doubles as a value. -/
def ofDoubles (ds : List Double) : Json := .array (ds.map ofDouble)

/-- An ordered map as an object. -/
def ofOrderedMap {α : Type} (encode : α → Json) (m : OrderedMap String α) : Json :=
  .object (m.entries.map fun e => (e.1, encode e.2))

/-- A sorted map as an object. -/
def ofSortedMap {α : Type} (encode : α → Json) (m : SortedMap α) : Json :=
  .object (m.entries.map fun e => (e.1, encode e.2))

end Json

end ReferenceDraws
