import ReferenceDraws.Double.Decimal

/-!
# Shortest decimals

The decimal of fewest digits that reads back as a given double, and of those the nearest to
it. On the grid of decimals with `n` digits only the two neighbours of the value can be it,
so seventeen grids are tried, coarsest first.
-/

namespace ReferenceDraws.Double

/-- `m · 10 ^ p` against a value `num / den`: the part below, as floor and remainder. -/
def onGrid (num den : Nat) (p : Int) : Nat × Nat × Nat :=
  let (n, d) :=
    if 0 ≤ p then (num, den * Nat.pow 10 p.toNat) else (num * Nat.pow 10 (-p).toNat, den)
  (n / d, n % d, d)

/-- The value of a magnitude as a ratio. -/
def ratio (magnitude : Nat) : Nat × Nat :=
  let q := scale magnitude
  if 0 ≤ q then (significand magnitude * Nat.pow 2 q.toNat, 1)
  else (significand magnitude, Nat.pow 2 (-q).toNat)

/-- The exponent of the first decimal digit of a positive ratio of at least `10 ^ -340`. -/
def leadingExponent (num den : Nat) : Int :=
  ((Nat.toDigits 10 (num * Nat.pow 10 340 / den)).length : Int) - 341

/-- Whether `digits · 10 ^ p` reads back as the magnitude. -/
def readsBack (magnitude digits : Nat) (p : Int) : Bool :=
  (Decimal.toDouble ⟨false, digits, p⟩) = ofMagnitude false magnitude

/-- Tries the grids whose digits end at `10 ^ p`, `10 ^ (p - 1)`, …; of two neighbours that
both read back the nearer wins, and the even one where they are equally near. -/
def searchGrids (magnitude num den : Nat) : Nat → Int → Option (Nat × Int)
  | 0, _ => none
  | tries + 1, p =>
    let (below, rest, unit) := onGrid num den p
    let lower := readsBack magnitude below p
    let upper := readsBack magnitude (below + 1) p
    let preferUpper := unit < 2 * rest ∨ (unit = 2 * rest ∧ below % 2 = 1)
    if lower ∧ (!upper ∨ ¬ preferUpper) then some (below, p)
    else if upper then some (below + 1, p)
    else searchGrids magnitude num den tries (p - 1)

/-- The shortest decimal of a positive finite magnitude as digits and a power of ten. -/
def shortest (magnitude : Nat) : Nat × Int :=
  let (num, den) := ratio magnitude
  let e := leadingExponent num den
  (searchGrids magnitude num den 17 e).getD (num * Nat.pow 10 1100 / den, -1100)

end ReferenceDraws.Double
