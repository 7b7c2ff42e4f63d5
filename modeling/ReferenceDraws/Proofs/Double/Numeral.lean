import Mathlib.Algebra.Order.Field.Rat
import Mathlib.Data.List.Induction
import Mathlib.Data.Rat.Cast.CharZero
import Mathlib.Tactic.FieldSimp
import ReferenceDraws.Proofs.Double.Rounding

/-!
# What numerals are read as

A numeral has a value, and the double that is read from it depends on the
value alone.

* Digits.  `digitsToNat` of digits put together, and of the digits that
  `Nat.toDigits` writes, which are all the digits without a leading zero
  (`toDigits_digitsToNat`).
* The value.  `Decimal.value` is the number that a numeral stands for, and
  `Decimal.toDouble_eq` says that a numeral is read as the double nearest
  to it, the cases settled without the power included.
* Shortest decimals.  `readsBack_shortest` says that the shortest decimal
  of a finite magnitude is read as that magnitude.
-/

namespace ReferenceDraws

/-! ## Digits -/

theorem digitsToNat_eq (cs : List Char) : digitsToNat cs = Nat.ofDigitChars 10 cs 0 := rfl

@[simp] theorem digitsToNat_toDigits (n : Nat) : digitsToNat (Nat.toDigits 10 n) = n :=
  Nat.ofDigitChars_ten_toDigits

/-- Digits before others count by the power of ten that these fill. -/
theorem digitsToNat_append (cs ds : List Char) :
    digitsToNat (cs ++ ds) = digitsToNat cs * 10 ^ ds.length + digitsToNat ds := by
  rw [digitsToNat_eq, Nat.ofDigitChars_append, Nat.ofDigitChars_eq_ofDigitChars_zero,
    Nat.mul_comm]
  rfl

theorem digitsToNat_replicate_zero (k : Nat) : digitsToNat (List.replicate k '0') = 0 := by
  rw [digitsToNat_eq, Nat.ofDigitChars_replicate_zero, Nat.mul_zero]

/-- Zeros behind digits are a power of ten. -/
theorem digitsToNat_append_zeros (cs : List Char) (k : Nat) :
    digitsToNat (cs ++ List.replicate k '0') = digitsToNat cs * 10 ^ k := by
  rw [digitsToNat_append, digitsToNat_replicate_zero, List.length_replicate, Nat.add_zero]

/-- Zeros before digits do not count. -/
theorem digitsToNat_zeros_append (k : Nat) (cs : List Char) :
    digitsToNat (List.replicate k '0' ++ cs) = digitsToNat cs := by
  rw [digitsToNat_append, digitsToNat_replicate_zero, Nat.zero_mul, Nat.zero_add]

/-- The digit of a number is the character that stands for it. -/
theorem digitChar_sub_of_isDigit {c : Char} (hc : c.isDigit = true) :
    c.toNat - '0'.toNat < 10 ∧ Nat.digitChar (c.toNat - '0'.toNat) = c := by
  have hzero : '0'.toNat = 48 := rfl
  obtain ⟨hle, hlt⟩ : 48 ≤ c.toNat ∧ c.toNat ≤ 57 := by
    simpa [Char.isDigit, UInt32.le_iff_toNat_le] using hc
  refine ⟨by omega, Char.toNat_inj.1 ?_⟩
  rw [Nat.toNat_digitChar_of_lt_ten (by omega)]
  omega

/-- Digits without a leading zero are the ones that are written for their value. -/
theorem toDigits_digitsToNat {cs : List Char} (hdigits : ∀ c ∈ cs, c.isDigit = true)
    (hhead : cs.head? ≠ some '0') (hne : cs ≠ []) : Nat.toDigits 10 (digitsToNat cs) = cs := by
  induction cs using List.reverseRecOn with
  | nil => exact absurd rfl hne
  | append_singleton cs c ih =>
    obtain ⟨hlt, hchar⟩ := digitChar_sub_of_isDigit (hdigits c (by simp))
    have hlast : digitsToNat (cs ++ [c]) = 10 * digitsToNat cs + (c.toNat - '0'.toNat) := by
      simp [digitsToNat, List.foldl_append]
    rw [hlast]
    by_cases hcs : cs = []
    · subst hcs
      rw [show digitsToNat [] = 0 from rfl, Nat.mul_zero, Nat.zero_add,
        Nat.toDigits_of_lt_base hlt, hchar, List.nil_append]
    · have hwritten : Nat.toDigits 10 (digitsToNat cs) = cs := by
        refine ih (fun d hd => hdigits d (List.mem_append_left _ hd)) ?_ hcs
        rwa [List.head?_append_of_ne_nil cs hcs] at hhead
      have hpos : 0 < digitsToNat cs := by
        refine Nat.pos_of_ne_zero fun hzero => ?_
        rw [hzero, Nat.toDigits_zero] at hwritten
        rw [← hwritten] at hhead
        exact hhead rfl
      rw [← Nat.toDigits_append_toDigits (by decide) hpos hlt, hwritten,
        Nat.toDigits_of_lt_base hlt, hchar]

namespace Decimal

/-! ## The value of a numeral -/

/-- The number that a numeral stands for, without its sign. -/
def value (d : Decimal) : ℚ := d.digits * 10 ^ d.exponent

/-- A value as a ratio, in whole numbers. -/
theorem value_eq_div_iff (d : Decimal) {num den : Nat} (hden : 0 < den) :
    d.value = num / den ↔
      d.digits * 10 ^ d.exponent.toNat * den = num * 10 ^ (-d.exponent).toNat := by
  have hd : (den : ℚ) ≠ 0 := by exact_mod_cast Nat.pos_iff_ne_zero.1 hden
  have hten : ∀ n : Nat, (10 : ℚ) ^ n ≠ 0 := fun n => pow_ne_zero n (by norm_num)
  have hpow : (10 : ℚ) ^ d.exponent = 10 ^ d.exponent.toNat / 10 ^ (-d.exponent).toNat := by
    rw [← zpow_natCast, ← zpow_natCast, ← zpow_sub₀ (by norm_num)]
    congr 1
    omega
  rw [value, hpow, ← mul_div_assoc, div_eq_div_iff (hten _) hd]
  exact_mod_cast Iff.rfl

/-- Zeros at the end of the digits may go into the power. -/
theorem value_shift (a b : Bool) (n k : Nat) (e : Int) :
    value ⟨a, n * 10 ^ k, e⟩ = value ⟨b, n, e + k⟩ := by
  simp only [value]
  push_cast
  rw [zpow_add₀ (by norm_num), zpow_natCast]
  ring

theorem toDouble_zero (negative : Bool) (e : Int) :
    toDouble ⟨negative, 0, e⟩ = .ofMagnitude negative 0 := if_pos rfl

/-- Numbers from `10 ^ 311` on exceed the doubles. -/
theorem pow_two_le_pow_ten {n : Nat} (hn : 311 ≤ n) : 2 ^ 1024 ≤ 10 ^ n := by
  have h : 2 ^ 1024 ≤ 10 ^ 311 := by decide +kernel
  generalize 311 = m at hn h
  exact Nat.le_trans h (Nat.pow_le_pow_right (by decide) hn)

/-- Half of the finest double exceeds `10 ^ -332`. -/
theorem two_mul_finest_le {n : Nat} (hn : 332 ≤ n) : 2 * Double.finest ≤ 10 ^ n := by
  have h : 2 * Double.finest ≤ 10 ^ 332 := by decide +kernel
  generalize 332 = m at hn h
  exact Nat.le_trans h (Nat.pow_le_pow_right (by decide) hn)

/-- The digits of a number are bounded by its binary logarithm. -/
theorem lt_pow_ten (n : Nat) : n < 10 ^ (n.log2 / 3 + 1) := by
  calc n < 2 ^ (n.log2 + 1) := Nat.lt_log2_self
    _ ≤ 2 ^ (3 * (n.log2 / 3 + 1)) := Nat.pow_le_pow_right (by decide) (by omega)
    _ = 8 ^ (n.log2 / 3 + 1) := Nat.pow_mul 2 3 _
    _ ≤ 10 ^ (n.log2 / 3 + 1) := Nat.pow_le_pow_left (by decide) _

variable {d : Decimal} {num den : Nat}

theorem eq_zero_of_digits (hden : 0 < den) (h : d.value = num / den) (hzero : d.digits = 0) :
    num = 0 := by
  have hratio := (d.value_eq_div_iff hden).1 h
  rw [hzero, Nat.zero_mul, Nat.zero_mul] at hratio
  exact (Nat.mul_eq_zero.1 hratio.symm).resolve_right (Nat.pow_pos (by decide)).ne'

/-- Any digits with an exponent past 310 exceed the doubles. -/
theorem mul_le_of_large (hden : 0 < den) (h : d.value = num / den) (hdigits : d.digits ≠ 0)
    (hlarge : 310 < d.exponent) : den * 2 ^ 1024 ≤ num := by
  have hratio := (d.value_eq_div_iff hden).1 h
  have hneg : (-d.exponent).toNat = 0 := by omega
  rw [hneg, Nat.pow_zero, Nat.mul_one] at hratio
  calc den * 2 ^ 1024 ≤ den * 10 ^ d.exponent.toNat :=
        Nat.mul_le_mul_left den (pow_two_le_pow_ten (by omega))
    _ ≤ d.digits * (den * 10 ^ d.exponent.toNat) :=
      Nat.le_mul_of_pos_left _ (Nat.pos_of_ne_zero hdigits)
    _ = num := by rw [← hratio]; ring

/-- Digits that all stand past the place 330 are below half of the finest double. -/
theorem mul_lt_of_small (hden : 0 < den) (h : d.value = num / den)
    (hsmall : d.exponent + d.digits.log2 / 3 + 2 < -330) : 2 * (num * Double.finest) < den := by
  have hratio := (d.value_eq_div_iff hden).1 h
  have hpos : d.exponent.toNat = 0 := by omega
  rw [hpos, Nat.pow_zero, Nat.mul_one] at hratio
  have hlength : d.digits.log2 / 3 + 1 ≤ (-d.exponent).toNat := by omega
  refine Nat.lt_of_mul_lt_mul_right (a := 10 ^ (d.digits.log2 / 3 + 1)) ?_
  calc 2 * (num * Double.finest) * 10 ^ (d.digits.log2 / 3 + 1)
      = num * (2 * Double.finest * 10 ^ (d.digits.log2 / 3 + 1)) := by ring
    _ ≤ num * (10 ^ ((-d.exponent).toNat - (d.digits.log2 / 3 + 1)) *
          10 ^ (d.digits.log2 / 3 + 1)) :=
      Nat.mul_le_mul_left num (Nat.mul_le_mul_right _ (two_mul_finest_le (by omega)))
    _ = num * 10 ^ (-d.exponent).toNat := by rw [Nat.pow_sub_mul_pow 10 hlength]
    _ = d.digits * den := hratio.symm
    _ < 10 ^ (d.digits.log2 / 3 + 1) * den :=
      Nat.mul_lt_mul_of_pos_right (lt_pow_ten d.digits) hden
    _ = den * 10 ^ (d.digits.log2 / 3 + 1) := Nat.mul_comm _ _

/-- A numeral is read as the double nearest to its value. -/
theorem toDouble_eq (d : Decimal) {num den : Nat} (hden : 0 < den) (h : d.value = num / den) :
    d.toDouble = .ofMagnitude d.negative (Double.nearestMagnitude num den) := by
  have hratio := (d.value_eq_div_iff hden).1 h
  simp only [toDouble, Nat.pow_eq]
  split
  · rename_i hzero
    rw [eq_zero_of_digits hden h hzero, Double.nearestMagnitude_zero]
  rename_i hdigits
  split
  · rename_i hlarge
    rw [Double.nearestMagnitude_eq_infinite hden (mul_le_of_large hden h hdigits hlarge)]
    rfl
  split
  · rename_i hsmall
    rw [Double.nearestMagnitude_eq_zero (mul_lt_of_small hden h hsmall)]
  split
  · rename_i hpositive
    have hneg : (-d.exponent).toNat = 0 := by omega
    rw [hneg, Nat.pow_zero, Nat.mul_one] at hratio
    rw [Double.ofRatio, Double.nearestMagnitude_congr Nat.one_pos hden]
    rw [Nat.mul_one, hratio]
  · rename_i hnegative
    have hpos : d.exponent.toNat = 0 := by omega
    rw [hpos, Nat.pow_zero, Nat.mul_one] at hratio
    rw [Double.ofRatio, Double.nearestMagnitude_congr (Nat.pow_pos (by decide)) hden hratio]

/-- A numeral is read as a magnitude with the sign of the numeral. -/
theorem exists_toDouble_eq (n : Nat) (e : Int) :
    ∃ m ≤ Double.infiniteMagnitude, ∀ negative,
      toDouble ⟨negative, n, e⟩ = .ofMagnitude negative m := by
  have hden : 0 < 10 ^ (-e).toNat := Nat.pow_pos (by decide)
  refine ⟨_, Double.nearestMagnitude_le (n * 10 ^ e.toNat) (10 ^ (-e).toNat), fun negative => ?_⟩
  exact toDouble_eq _ hden ((value_eq_div_iff ⟨negative, n, e⟩ hden).2 rfl)

/-- Numerals of one sign and one value are read alike. -/
theorem toDouble_congr {a b : Decimal} (hnegative : a.negative = b.negative)
    (hvalue : a.value = b.value) : a.toDouble = b.toDouble := by
  have hden : 0 < 10 ^ (-b.exponent).toNat := Nat.pow_pos (by decide)
  have hratio : b.value = (b.digits * 10 ^ b.exponent.toNat : Nat) /
      (10 ^ (-b.exponent).toNat : Nat) := (b.value_eq_div_iff hden).2 rfl
  rw [toDouble_eq b hden hratio, toDouble_eq a hden (hvalue.trans hratio), hnegative]

end Decimal

namespace Double

/-! ## The parts of a number -/

@[simp] theorem magnitude_ofMagnitude (negative : Bool) {m : Nat} (hm : m < 2 ^ 63) :
    (ofMagnitude negative m).magnitude = m := by
  have hbits : (if negative then 2 ^ 63 + m else m) < 2 ^ 64 := by split <;> omega
  rw [magnitude, ofMagnitude, Nat.pow_eq, UInt64.toNat_ofNat_of_lt' hbits]
  split <;> omega

/-- A number is its sign and its magnitude. -/
theorem ofMagnitude_magnitude (d : Double) : ofMagnitude d.isNegative d.magnitude = d := by
  have hlt : d.bits.toNat < 2 ^ 64 := d.bits.toNat_lt
  have hbits : (if d.isNegative then 2 ^ 63 + d.magnitude else d.magnitude) = d.bits.toNat := by
    simp only [isNegative, magnitude, Nat.pow_eq, decide_eq_true_eq]
    split <;> omega
  rw [ofMagnitude, Nat.pow_eq, hbits, UInt64.ofNat_toNat]

/-- A ratio that is not too great is rounded to a finite number. -/
theorem isFinite_ofRatio (negative : Bool) {num den : Nat} (hden : 0 < den)
    (h : num < den * 2 ^ 1023) : (ofRatio negative num den).isFinite = true := by
  have hlt : nearestMagnitude num den < infiniteMagnitude := nearestMagnitude_lt_infinite hden h
  have hword : nearestMagnitude num den < 2 ^ 63 := Nat.lt_trans hlt (by decide)
  rw [isFinite, ofRatio, magnitude_ofMagnitude negative hword]
  exact decide_eq_true hlt

/-! ## Shortest decimals -/

/-- What reads back as a magnitude does so with either sign. -/
theorem toDouble_of_readsBack {m n : Nat} {p : Int} (hm : m < 2 ^ 63)
    (h : readsBack m n p = true) (negative : Bool) :
    Decimal.toDouble ⟨negative, n, p⟩ = ofMagnitude negative m := by
  obtain ⟨k, hk, hread⟩ := Decimal.exists_toDouble_eq n p
  have hlt : k < 2 ^ 63 := Nat.lt_of_le_of_lt hk (by decide)
  have hsame : ofMagnitude false k = ofMagnitude false m :=
    (hread false).symm.trans (of_decide_eq_true h)
  have hkm : k = m := by
    rw [← magnitude_ofMagnitude false hlt, hsame, magnitude_ofMagnitude false hm]
  rw [hread negative, hkm]

/-- A decimal that a search finds reads back. -/
theorem readsBack_of_searchGrids {m num den tries n : Nat} {p q : Int}
    (h : searchGrids m num den tries p = some (n, q)) : readsBack m n q = true := by
  induction tries generalizing p with
  | zero => cases h
  | succ tries ih =>
    simp only [searchGrids] at h
    split at h
    · rename_i hlower
      cases h
      exact hlower.1
    · split at h
      · rename_i hupper
        cases h
        exact hupper
      · exact ih h

/-- The terms of a magnitude's value divide every power of ten from `10 ^ 1074` on. -/
theorem ratio_dvd (m : Nat) {n : Nat} (hn : 1074 ≤ n) : (ratio m).2 ∣ 10 ^ n := by
  obtain ⟨t, hscale, -⟩ := exists_steps_magnitude m
  simp only [ratio, hscale, Nat.pow_eq]
  split
  · exact Nat.one_dvd _
  · have hexponent : (-((t : Int) - 1074)).toNat ≤ n := by omega
    exact Nat.dvd_trans (Nat.pow_dvd_pow 2 hexponent) (pow_dvd_pow_of_dvd (by decide) n)

/-- The exact decimal of a magnitude reads back. -/
theorem readsBack_exact {m n : Nat} (hm : m < infiniteMagnitude) (hn : 1074 ≤ n) :
    readsBack m ((ratio m).1 * 10 ^ n / (ratio m).2) (-n) = true := by
  obtain ⟨t, hscale, -⟩ := exists_steps_magnitude m
  have hden : 0 < (ratio m).2 := (ratio_eq hscale).1
  have hdvd : (ratio m).2 ∣ (ratio m).1 * 10 ^ n := Nat.dvd_mul_left_of_dvd (ratio_dvd m hn) _
  have hvalue : Decimal.value ⟨false, (ratio m).1 * 10 ^ n / (ratio m).2, -n⟩ =
      (ratio m).1 / (ratio m).2 := by
    rw [Decimal.value_eq_div_iff _ hden]
    have hpos : (-(n : Int)).toNat = 0 := by omega
    have hneg : (- -(n : Int)).toNat = n := by omega
    simp only [hpos, hneg, Nat.pow_zero, Nat.mul_one, Nat.div_mul_cancel hdvd]
  rw [readsBack, Decimal.toDouble_eq _ hden hvalue, nearestMagnitude_ratio hm]
  exact decide_eq_true rfl

/-- The shortest decimal of a finite magnitude reads back as it. -/
theorem readsBack_shortest {m n : Nat} {p : Int} (hm : m < infiniteMagnitude)
    (h : shortest m = (n, p)) : readsBack m n p = true := by
  simp only [shortest, Nat.pow_eq] at h
  cases hsearch : searchGrids m (ratio m).1 (ratio m).2 17
      (leadingExponent (ratio m).1 (ratio m).2) with
  | none =>
    have hexponent : (-1100 : Int) = -(1100 : Nat) := rfl
    have hexact := readsBack_exact hm (show 1074 ≤ 1100 by decide)
    rw [hsearch, Option.getD_none, hexponent] at h
    generalize 1100 = k at hexact h
    cases h
    exact hexact
  | some found =>
    rw [hsearch, Option.getD_some] at h
    exact readsBack_of_searchGrids (hsearch.trans (congrArg some h))

end Double

end ReferenceDraws
