/-!
# Double-precision numbers

IEEE 754 binary64 numbers as their 64 bits, with the order of their values, and rounding of
exact ratios to the nearest of them. A finite number of magnitude `m` has the value
`significand · 2 ^ scale`; neighbouring magnitudes are neighbouring values, so that order and
rounding are questions about natural numbers.
-/

namespace ReferenceDraws

/-- A binary64 number, given by its bits: sign, eleven of exponent, fifty-two of fraction. -/
structure Double where
  /-- The sixty-four bits. -/
  bits : UInt64
deriving DecidableEq, Inhabited

namespace Double

/-! ## Parts of a number -/

/-- Whether the sign bit is set. -/
def isNegative (d : Double) : Bool := Nat.pow 2 63 ≤ d.bits.toNat

/-- The bits without the sign. -/
def magnitude (d : Double) : Nat := d.bits.toNat % Nat.pow 2 63

/-- The magnitude of the infinities; greater ones are not numbers. -/
def infiniteMagnitude : Nat := 2047 * Nat.pow 2 52

/-- Whether the bits stand for no number. -/
def isNaN (d : Double) : Bool := infiniteMagnitude < d.magnitude

/-- Whether the bits stand for a real number. -/
def isFinite (d : Double) : Bool := d.magnitude < infiniteMagnitude

/-- The number with a sign and a magnitude below `2 ^ 63`. -/
def ofMagnitude (negative : Bool) (magnitude : Nat) : Double :=
  ⟨UInt64.ofNat (if negative then Nat.pow 2 63 + magnitude else magnitude)⟩

/-- The one result that stands for no number. -/
def nan : Double := ⟨0x7ff8000000000000⟩

/-- An infinity. -/
def infinity (negative : Bool) : Double := ofMagnitude negative infiniteMagnitude

/-- Zero. -/
def zero : Double := ⟨0⟩

/-- One. -/
def one : Double := ⟨0x3ff0000000000000⟩

/-- The integer that a magnitude multiplies its power of two with. -/
def significand (magnitude : Nat) : Nat :=
  if magnitude < Nat.pow 2 52 then magnitude else Nat.pow 2 52 + magnitude % Nat.pow 2 52

/-- The exponent of that power of two. -/
def scale (magnitude : Nat) : Int :=
  if magnitude < Nat.pow 2 52 then -1074 else (magnitude / Nat.pow 2 52 : Nat) - 1075

/-! ## Order -/

/-- An integer that orders the numbers as their values do; both zeros have the same. -/
def orderKey (d : Double) : Int :=
  if d.isNegative then -(d.magnitude : Int) else d.magnitude

/-- Whether one number is less than another; nothing is less or greater than a NaN. -/
def less (a b : Double) : Bool := !a.isNaN && !b.isNaN && a.orderKey < b.orderKey

/-! ## Rounding -/

/-- A quotient rounded to the nearest integer, a half to the even one. -/
def roundQuotient (num den : Nat) : Nat :=
  let q := num / den
  let twice := 2 * (num % den)
  if twice < den then q else if den < twice then q + 1 else q + q % 2

/-- `num / den · 2 ^ (-scale)` as a quotient of natural numbers. -/
def scaled (num den : Nat) (scale : Int) : Nat × Nat :=
  if 0 ≤ scale then (num, den * Nat.pow 2 scale.toNat) else (num * Nat.pow 2 (-scale).toNat, den)

/-- The least scale at which `num / den` has at most fifty-three binary digits. -/
def scaleOf (num den : Nat) : Int :=
  let guess := max (-1074) ((num.log2 : Int) - den.log2 - 53)
  let (n, d) := scaled num den guess
  if Nat.pow 2 53 ≤ n / d then guess + 1 else guess

/-- The magnitude nearest to `num / den`, a half going to the even one. -/
def nearestMagnitude (num den : Nat) : Nat :=
  if num = 0 then 0
  else
    let scale := scaleOf num den
    let (n, d) := scaled num den scale
    min infiniteMagnitude ((scale + 1074).toNat * Nat.pow 2 52 + roundQuotient n d)

/-- The number nearest to a ratio, with a sign. -/
def ofRatio (negative : Bool) (num den : Nat) : Double :=
  ofMagnitude negative (nearestMagnitude num den)

/-- The number nearest to a natural number. -/
def ofNat (n : Nat) : Double := ofRatio false n 1

end Double

end ReferenceDraws
