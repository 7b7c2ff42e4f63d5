import Mathlib.Tactic.NormNum
import ReferenceDraws.Proofs.Double.Numeral

/-!
# The order of doubles

`Double.less` compares integers.  This module says that it compares values.

* Values.  `size` is the value of a magnitude and `value` that of a finite
  double.  Greater magnitudes have greater values (`size_lt_size_iff`).
* Bounds.  `IsAbove` and `IsBelow` compare a double with a rational number; an
  infinity is above or below every one, and what is no number is neither
  (`not_isAbove_of_isNaN`, `not_isBelow_of_isNaN`).  Comparison with a finite
  double is comparison with its value (`less_iff_isAbove`, `less_iff_isBelow`).
  A number between two neighbouring doubles is no other bound than the upper
  one (`isBelow_size_succ_iff`), which may stand for it.
-/

namespace ReferenceDraws.Double

/-! ## Values -/

/-- The value of a magnitude. -/
def size (m : Nat) : ℚ := significand m * 2 ^ scale m

/-- The value of a finite double. -/
def value (d : Double) : ℚ := if d.isNegative then -size d.magnitude else size d.magnitude

/-- The value of a magnitude in units of the finest doubles. -/
theorem exists_size_eq (m : Nat) :
    ∃ t : Nat, size m = (significand m * 2 ^ t : Nat) * (2 : ℚ) ^ (-1074 : Int) ∧
      m = t * 2 ^ 52 + significand m ∧ significand m < 2 ^ 53 ∧
      (t = 0 ∨ 2 ^ 52 ≤ significand m) := by
  obtain ⟨t, hscale, hsplit, hlt, hleast⟩ := exists_steps_magnitude m
  refine ⟨t, ?_, hsplit, hlt, hleast⟩
  rw [size, hscale, sub_eq_add_neg, zpow_add₀ two_ne_zero, zpow_natCast, ← mul_assoc,
    Nat.cast_mul, Nat.cast_pow, Nat.cast_ofNat]

/-- A greater magnitude has a greater value. -/
theorem size_strictMono : StrictMono size := by
  intro m n hmn
  obtain ⟨t, hm, hmsplit, hmlt, hmleast⟩ := exists_size_eq m
  obtain ⟨u, hn, hnsplit, hnlt, hnleast⟩ := exists_size_eq n
  have hunits : significand m * 2 ^ t < significand n * 2 ^ u := by
    rcases Nat.lt_trichotomy t u with htu | rfl | hut
    · -- The grid doubles at least once from the one magnitude to the other.
      have hfull : 2 ^ 52 ≤ significand n := hnleast.resolve_left (by omega)
      calc significand m * 2 ^ t < 2 ^ 53 * 2 ^ t :=
            Nat.mul_lt_mul_of_pos_right hmlt (Nat.two_pow_pos t)
        _ = 2 ^ 52 * 2 ^ (t + 1) := by rw [Nat.pow_succ 2 t]; omega
        _ ≤ 2 ^ 52 * 2 ^ u := Nat.mul_le_mul_left _ (Nat.pow_le_pow_right (by decide) htu)
        _ ≤ significand n * 2 ^ u := Nat.mul_le_mul_right _ hfull
    · exact Nat.mul_lt_mul_of_pos_right (by omega) (Nat.two_pow_pos t)
    · have hfull : 2 ^ 52 ≤ significand m := hmleast.resolve_left (by omega)
      omega
  rw [hm, hn]
  apply mul_lt_mul_of_pos_right
  · exact Nat.cast_lt.2 hunits
  · exact zpow_pos two_pos _

theorem size_lt_size_iff {m n : Nat} : size m < size n ↔ m < n := size_strictMono.lt_iff_lt

@[simp] theorem size_zero : size 0 = 0 := by
  rw [size, show significand 0 = 0 from rfl, Nat.cast_zero, zero_mul]

theorem size_pos_iff {m : Nat} : 0 < size m ↔ 0 < m := by
  rw [← size_lt_size_iff (m := 0), size_zero]

theorem size_nonneg (m : Nat) : 0 ≤ size m := by
  rw [← size_zero]
  exact size_strictMono.monotone (Nat.zero_le m)

/-- The keys of numbers are in the order of their values. -/
theorem value_lt_value_iff (a b : Double) : a.value < b.value ↔ a.orderKey < b.orderKey := by
  simp only [value, orderKey]
  split <;> split
  · rw [neg_lt_neg_iff, size_lt_size_iff]
    omega
  · -- A negative number is less than a positive one, unless both are zeros.
    constructor
    · intro hlt
      by_contra hkey
      have ha : a.magnitude = 0 := by omega
      have hb : b.magnitude = 0 := by omega
      rw [ha, hb, size_zero, neg_zero] at hlt
      exact lt_irrefl 0 hlt
    · intro hkey
      rcases Nat.eq_zero_or_pos a.magnitude with ha | ha
      · rw [ha, size_zero, neg_zero, size_pos_iff]
        omega
      · exact (neg_neg_of_pos (size_pos_iff.2 ha)).trans_le (size_nonneg _)
  · have hle : -size b.magnitude ≤ size a.magnitude :=
      (neg_nonpos.2 (size_nonneg _)).trans (size_nonneg _)
    exact iff_of_false (not_lt.2 hle) (by omega)
  · rw [size_lt_size_iff]
    omega

/-! ## Bounds -/

/-- Whether a double exceeds a rational number. -/
def IsAbove (d : Double) (q : ℚ) : Prop := d = infinity false ∨ (d.isFinite = true ∧ q < d.value)

/-- Whether a double is less than a rational number. -/
def IsBelow (d : Double) (q : ℚ) : Prop := d = infinity true ∨ (d.isFinite = true ∧ d.value < q)

/-- A double is finite, an infinity or no number. -/
theorem finite_or_infinite (d : Double) :
    (d.isFinite = true ∧ d.isNaN = false) ∨ d = infinity false ∨ d = infinity true ∨
      d.isNaN = true := by
  rcases Nat.lt_trichotomy d.magnitude infiniteMagnitude with hlt | heq | hgt
  · left
    simp only [isFinite, isNaN, decide_eq_true_eq, decide_eq_false_iff_not]
    omega
  · have hd : d = infinity d.isNegative := by rw [infinity, ← heq, ofMagnitude_magnitude]
    rw [hd]
    cases d.isNegative
    · exact .inr (.inl rfl)
    · exact .inr (.inr (.inl rfl))
  · exact .inr (.inr (.inr (decide_eq_true hgt)))

theorem isNaN_eq_false_of_isFinite {d : Double} (h : d.isFinite = true) : d.isNaN = false := by
  simp only [isFinite, isNaN, decide_eq_true_eq, decide_eq_false_iff_not] at h ⊢
  omega

@[simp] theorem isFinite_infinity (s : Bool) : (infinity s).isFinite = false := by
  cases s <;> decide

@[simp] theorem isNaN_infinity (s : Bool) : (infinity s).isNaN = false := by
  cases s <;> decide

@[simp] theorem infinity_inj {s t : Bool} : infinity s = infinity t ↔ s = t := by
  cases s <;> cases t <;> decide

/-- The key of a finite number lies between those of the infinities. -/
theorem orderKey_between {d : Double} (h : d.isFinite = true) :
    (infinity true).orderKey < d.orderKey ∧ d.orderKey < (infinity false).orderKey := by
  have hinfinite : (infinity true).orderKey = -(infiniteMagnitude : Int) ∧
      (infinity false).orderKey = infiniteMagnitude := by decide +kernel
  rw [isFinite, decide_eq_true_eq] at h
  rw [hinfinite.1, hinfinite.2, orderKey]
  generalize infiniteMagnitude = m at h
  split <;> omega

theorem not_isAbove_of_isNaN {d : Double} (h : d.isNaN = true) (q : ℚ) : ¬ d.IsAbove q := by
  intro habove
  rcases habove with rfl | ⟨hfinite, -⟩
  · simp at h
  · rw [isNaN_eq_false_of_isFinite hfinite] at h
    cases h

theorem not_isBelow_of_isNaN {d : Double} (h : d.isNaN = true) (q : ℚ) : ¬ d.IsBelow q := by
  intro hbelow
  rcases hbelow with rfl | ⟨hfinite, -⟩
  · simp at h
  · rw [isNaN_eq_false_of_isFinite hfinite] at h
    cases h

/-- The doubles greater than a finite one are those above its value. -/
theorem less_iff_isAbove {b : Double} (hb : b.isFinite = true) (x : Double) :
    b.less x = true ↔ x.IsAbove b.value := by
  have hnumber := isNaN_eq_false_of_isFinite hb
  obtain ⟨hlow, hhigh⟩ := orderKey_between hb
  rcases finite_or_infinite x with ⟨hfinite, hx⟩ | rfl | rfl | hx
  · have hne : x ≠ infinity false := by
      intro hinfinite
      rw [hinfinite, isFinite_infinity] at hfinite
      cases hfinite
    simp [less, IsAbove, value_lt_value_iff, hnumber, hfinite, hx, hne]
  · simp [less, IsAbove, hnumber, hhigh]
  · simp [less, IsAbove, hnumber, Int.le_of_lt hlow]
  · exact iff_of_false (by simp [less, hx]) (not_isAbove_of_isNaN hx _)

/-- The doubles less than a finite one are those below its value. -/
theorem less_iff_isBelow {b : Double} (hb : b.isFinite = true) (x : Double) :
    x.less b = true ↔ x.IsBelow b.value := by
  have hnumber := isNaN_eq_false_of_isFinite hb
  obtain ⟨hlow, hhigh⟩ := orderKey_between hb
  rcases finite_or_infinite x with ⟨hfinite, hx⟩ | rfl | rfl | hx
  · have hne : x ≠ infinity true := by
      intro hinfinite
      rw [hinfinite, isFinite_infinity] at hfinite
      cases hfinite
    simp [less, IsBelow, value_lt_value_iff, hnumber, hfinite, hx, hne]
  · simp [less, IsBelow, hnumber, Int.le_of_lt hhigh]
  · simp [less, IsBelow, hnumber, hlow]
  · exact iff_of_false (by simp [less, hx]) (not_isBelow_of_isNaN hx _)

/-- A bound between two neighbouring doubles may be moved up to the upper one,
for no double lies between them. -/
theorem isBelow_size_succ_iff {m : Nat} {q : ℚ} (hlow : size m < q) (hhigh : q ≤ size (m + 1))
    (x : Double) : x.IsBelow (size (m + 1)) ↔ x.IsBelow q := by
  have hvalue : x.value < size (m + 1) ↔ x.value < q := by
    refine ⟨fun h => ?_, fun h => h.trans_le hhigh⟩
    cases hsign : x.isNegative
    · rw [value, hsign, if_neg Bool.false_ne_true] at h ⊢
      have hle : x.magnitude ≤ m := Nat.le_of_lt_succ (size_lt_size_iff.1 h)
      exact (size_strictMono.monotone hle).trans_lt hlow
    · rw [value, hsign, if_pos rfl]
      have hpos : 0 < q := (size_nonneg m).trans_lt hlow
      exact (neg_nonpos.2 (size_nonneg _)).trans_lt hpos
  rw [IsBelow, IsBelow, hvalue]

end ReferenceDraws.Double
