import ReferenceDraws.Double.Basic

/-!
# Decimal numerals

A numeral is an integer of decimal digits times a power of ten. It is read to the nearest
double; one beyond the greatest finite double is read as an infinity.
-/

namespace ReferenceDraws

/-- `digits · 10 ^ exponent`, with a sign that zero keeps. -/
structure Decimal where
  /-- Whether a minus stands before it. -/
  negative : Bool
  /-- The digits as one integer. -/
  digits : Nat
  /-- The power of ten. -/
  exponent : Int
deriving DecidableEq

/-- The value of decimal digits, most significant first. -/
def digitsToNat (cs : List Char) : Nat :=
  cs.foldl (fun n c => 10 * n + (c.toNat - '0'.toNat)) 0

namespace Decimal

/-- A numeral from its parts: digits before and after the point, and the written exponent. -/
def ofParts (negative : Bool) (whole fraction : List Char) (exponent : Int) : Decimal :=
  ⟨negative, digitsToNat (whole ++ fraction), exponent - fraction.length⟩

/-- The double nearest to a numeral. Exponents so large or so small that no digit can matter
are settled without the power. -/
def toDouble (d : Decimal) : Double :=
  if d.digits = 0 then Double.ofMagnitude d.negative 0
  else if 310 < d.exponent then Double.infinity d.negative
  else if d.exponent + d.digits.log2 / 3 + 2 < -330 then Double.ofMagnitude d.negative 0
  else if 0 ≤ d.exponent then Double.ofRatio d.negative (d.digits * Nat.pow 10 d.exponent.toNat) 1
  else Double.ofRatio d.negative d.digits (Nat.pow 10 (-d.exponent).toNat)

end Decimal

/-! ## Numerals in free text -/

/-- Splits an optional sign off; the result says whether it was a minus. -/
def splitSign : List Char → Bool × List Char
  | '-' :: rest => (true, rest)
  | '+' :: rest => (false, rest)
  | cs => (false, cs)

/-- A written exponent, `e` or `E` with an optional sign and at least one digit, filling the
rest of the text; without text it is zero. -/
def exponentSuffix? : List Char → Option Int
  | [] => some 0
  | c :: rest =>
    if c = 'e' ∨ c = 'E' then
      let (negative, digits) := splitSign rest
      if digits ≠ [] ∧ digits.all Char.isDigit then
        some (if negative then -(digitsToNat digits : Int) else digitsToNat digits)
      else none
    else none

/-- An unsigned numeral: digits with an optional point among or around them, at least one digit
in all, and an optional exponent. -/
def unsignedDecimal? (negative : Bool) (cs : List Char) : Option Decimal :=
  let whole := cs.takeWhile Char.isDigit
  match cs.dropWhile Char.isDigit with
  | '.' :: rest =>
    let fraction := rest.takeWhile Char.isDigit
    if whole = [] ∧ fraction = [] then none
    else (exponentSuffix? (rest.dropWhile Char.isDigit)).map
      (Decimal.ofParts negative whole fraction)
  | rest =>
    if whole = [] then none
    else (exponentSuffix? rest).map (Decimal.ofParts negative whole [])

namespace Double

/-- Reads a number from text, all of which it must fill: a numeral, `inf`, `infinity` or `nan`
in any case, each after an optional sign. -/
def ofChars? (cs : List Char) : Option Double :=
  let (negative, body) := splitSign cs
  let word := String.ofList (body.map Char.toLower)
  if word = "inf" ∨ word = "infinity" then some (infinity negative)
  else if word = "nan" then some nan
  else (unsignedDecimal? negative body).map Decimal.toDouble

/-- Reads a number from a string. -/
def ofString? (s : String) : Option Double := ofChars? s.toList

end Double

end ReferenceDraws
