import ReferenceDraws.Double.Shortest

/-!
# Written forms of a double

The digits are those of the shortest decimal that reads back; a style decides for which
exponents they are written with a point in place, and otherwise one digit stands before the
point and an exponent follows.
-/

namespace ReferenceDraws.Double

/-- For which exponents of the first digit a number is written without an exponent. -/
structure Style where
  /-- Whether a number whose first digit counts `10 ^ e` is written without an exponent. -/
  positional : Int → Bool

/-- The digits of a decimal without trailing zeros, and the exponent of the first. -/
def digitsOf (decimal : Nat × Int) : List Char × Int :=
  let cs := Nat.toDigits 10 decimal.1
  ((cs.reverse.dropWhile (· = '0')).reverse, decimal.2 + cs.length - 1)

/-- The digits of a positive magnitude and the exponent of the first. -/
def shortestDigits (magnitude : Nat) : List Char × Int := digitsOf (shortest magnitude)

/-- Digits with a point in place and at least one digit on either side of it. -/
def positionalForm (digits : List Char) (e : Int) : List Char :=
  if 0 ≤ e then
    let whole := e.toNat + 1
    let padded := digits ++ List.replicate (whole - digits.length) '0'
    let fraction := padded.drop whole
    padded.take whole ++ '.' :: (if fraction = [] then ['0'] else fraction)
  else '0' :: '.' :: List.replicate (-e - 1).toNat '0' ++ digits

/-- One digit, the others after a point, and the exponent with its sign. -/
def exponentForm (digits : List Char) (e : Int) : List Char :=
  let head := digits.take 1
  let tail := digits.drop 1
  let mantissa := if tail = [] then head else head ++ '.' :: tail
  let sign := if 0 ≤ e then '+' else '-'
  mantissa ++ 'e' :: sign :: Nat.toDigits 10 e.natAbs

/-- Digits in the form that a style has for their exponent. -/
def Style.form (style : Style) (digits : List Char × Int) : List Char :=
  if style.positional digits.2 then positionalForm digits.1 digits.2
  else exponentForm digits.1 digits.2

/-- A number in a style; what is not finite is named. -/
def render (style : Style) (d : Double) : List Char :=
  if d.isNaN then ['N', 'a', 'N']
  else
    let body :=
      if d.magnitude = 0 then ['0', '.', '0']
      else if d.isFinite then style.form (shortestDigits d.magnitude)
      else ['i', 'n', 'f']
    if d.isNegative then '-' :: body else body

/-- Every number with its point in place. -/
def Style.plain : Style := ⟨fun _ => true⟩

end ReferenceDraws.Double
