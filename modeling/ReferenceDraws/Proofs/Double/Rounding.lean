import Mathlib.Tactic.Ring
import ReferenceDraws.Double.Shortest

/-!
# Rounding to the nearest double

`Double.nearestMagnitude` guesses a scale from the binary logarithms of a
ratio and rounds at that scale.  This module says what comes out of it.

* The steps.  Magnitudes count in steps of `2 ^ 52`, one for each doubling
  of the grid.  `IsSteps` says which step a ratio belongs to, and
  `isSteps_scaleOf` that the guess, once corrected, is that step.
* The rounding.  `nearestMagnitude_eq` is the magnitude at the step of a
  ratio.  It follows that equal ratios have equal magnitudes
  (`nearestMagnitude_congr`) and that the value of a magnitude is rounded
  to that magnitude (`nearestMagnitude_ratio`).
* The ends.  Ratios too small are rounded to zero and ratios too great to
  the infinite magnitude; below `2 ^ 1023` no ratio is too great.
-/

namespace ReferenceDraws.Double

/-! ## Quotients -/

/-- A common factor of both terms does not matter. -/
theorem roundQuotient_mul_right (num den : Nat) {k : Nat} (hk : 0 < k) :
    roundQuotient (num * k) (den * k) = roundQuotient num den := by
  have hq : num * k / (den * k) = num / den := Nat.mul_div_mul_right num den hk
  have hr : num * k % (den * k) = num % den * k := Nat.mul_mod_mul_right k num den
  have hless : 2 * (num % den * k) < den * k ↔ 2 * (num % den) < den := by
    rw [← Nat.mul_assoc, Nat.mul_lt_mul_right hk]
  have hmore : den * k < 2 * (num % den * k) ↔ den < 2 * (num % den) := by
    rw [← Nat.mul_assoc, Nat.mul_lt_mul_right hk]
  simp only [roundQuotient, hq, hr, hless, hmore]

/-- A quotient without remainder is its own rounding. -/
theorem roundQuotient_mul_self (n : Nat) {den : Nat} (hden : 0 < den) :
    roundQuotient (n * den) den = n := by
  have hq : n * den / den = n := Nat.mul_div_cancel n hden
  have hr : n * den % den = 0 := Nat.mul_mod_left n den
  simp [roundQuotient, hq, hr, hden]

theorem div_le_roundQuotient (num den : Nat) : num / den ≤ roundQuotient num den := by
  simp only [roundQuotient]
  split
  · exact Nat.le_refl _
  · split <;> omega

theorem roundQuotient_le (num den : Nat) : roundQuotient num den ≤ num / den + 1 := by
  simp only [roundQuotient]
  split
  · exact Nat.le_succ _
  · split <;> omega

theorem roundQuotient_eq_zero {num den : Nat} (h : 2 * num < den) :
    roundQuotient num den = 0 := by
  have hlt : num < den := by omega
  simp [roundQuotient, Nat.mod_eq_of_lt hlt, Nat.div_eq_of_lt hlt, h]

/-! ## The steps -/

/-- How many of the finest doubles make one. -/
def finest : Nat := 2 ^ 1074

theorem pow_mul_pow_eq_finest {a b : Nat} (h : a + b = 1074) : 2 ^ a * 2 ^ b = finest := by
  unfold finest
  rw [← h, Nat.pow_add]

theorem pow_mul_finest (a : Nat) : 2 ^ a * finest = 2 ^ (a + 1074) := by
  unfold finest
  generalize 1074 = n
  exact (Nat.pow_add 2 a n).symm

theorem finest_pos : 0 < finest := by
  unfold finest
  generalize 1074 = n
  exact Nat.two_pow_pos n

/-- The least step `t` at which a ratio, in units of `2 ^ (t - 1074)`, stays
below `2 ^ 53`. -/
structure IsSteps (num den t : Nat) : Prop where
  lt : num * finest < den * 2 ^ (t + 53)
  least : t = 0 ∨ den * 2 ^ (t + 52) ≤ num * finest

/-- A common factor does not change the step. -/
theorem IsSteps.mul_right {num den t k : Nat} (h : IsSteps num den t) (hk : 0 < k) :
    IsSteps (num * k) (den * k) t where
  lt := by
    rw [Nat.mul_right_comm, Nat.mul_right_comm den]
    exact Nat.mul_lt_mul_of_pos_right h.lt hk
  least := by
    refine h.least.imp id fun hle => ?_
    rw [Nat.mul_right_comm, Nat.mul_right_comm num]
    exact Nat.mul_le_mul_right k hle

/-- Above the finest step a ratio fills at least fifty-three binary digits. -/
theorem IsSteps.le_roundQuotient {num den t : Nat} (h : IsSteps num den t) (hden : 0 < den)
    (ht : 0 < t) : 2 ^ 52 ≤ roundQuotient (num * finest) (den * 2 ^ t) := by
  have hle : den * 2 ^ (t + 52) ≤ num * finest := h.least.resolve_left (by omega)
  have hpos : 0 < den * 2 ^ t := Nat.mul_pos hden (Nat.two_pow_pos t)
  refine Nat.le_trans ?_ (div_le_roundQuotient _ _)
  rw [Nat.le_div_iff_mul_le hpos]
  calc 2 ^ 52 * (den * 2 ^ t) = den * 2 ^ (t + 52) := by ring
    _ ≤ num * finest := hle

/-- At its step a ratio fills at most fifty-three binary digits. -/
theorem IsSteps.roundQuotient_le {num den t : Nat} (h : IsSteps num den t) :
    roundQuotient (num * finest) (den * 2 ^ t) ≤ 2 ^ 53 := by
  refine Nat.le_trans (Double.roundQuotient_le _ _) (Nat.div_lt_of_lt_mul ?_)
  calc num * finest < den * 2 ^ (t + 53) := h.lt
    _ = den * 2 ^ t * 2 ^ 53 := by ring

/-- At a scale the terms are those of the ratio in units of the scale, up
to a common factor. -/
theorem scaled_eq (num den : Nat) {t : Nat} :
    ∃ k, 0 < k ∧ num * finest = (scaled num den (t - 1074)).1 * k ∧
      den * 2 ^ t = (scaled num den (t - 1074)).2 * k := by
  unfold scaled
  simp only [Nat.pow_eq]
  split
  · rename_i hle
    have ht : ((t : Int) - 1074).toNat + 1074 = t := by omega
    refine ⟨finest, finest_pos, rfl, ?_⟩
    rw [Nat.mul_assoc, pow_mul_finest, ht]
  · rename_i hlt
    refine ⟨2 ^ t, Nat.two_pow_pos t, ?_, rfl⟩
    rw [Nat.mul_assoc, pow_mul_pow_eq_finest (by omega)]

/-- Whether a ratio exceeds fifty-three binary digits at a scale. -/
theorem le_scaled_iff (num : Nat) {den t : Nat} (hden : 0 < den) :
    2 ^ 53 ≤ (scaled num den (t - 1074)).1 / (scaled num den (t - 1074)).2 ↔
      den * 2 ^ (t + 53) ≤ num * finest := by
  obtain ⟨k, hk, hnum, hd⟩ := scaled_eq num den (t := t)
  have hpos : 0 < den * 2 ^ t := Nat.mul_pos hden (Nat.two_pow_pos t)
  rw [← Nat.mul_div_mul_right _ _ hk, ← hnum, ← hd, Nat.le_div_iff_mul_le hpos,
    Nat.mul_comm, Nat.mul_assoc, ← Nat.pow_add]

/-- The guess from the logarithms misses the step by one at most, and the
correction finds it. -/
theorem isSteps_scaleOf {num den : Nat} (hnum : 0 < num) (hden : 0 < den) :
    ∃ t : Nat, scaleOf num den = t - 1074 ∧ IsSteps num den t := by
  have hnum1 : 2 ^ num.log2 ≤ num := Nat.log2_self_le (by omega)
  have hnum2 : num < 2 ^ (num.log2 + 1) := Nat.lt_log2_self
  have hden1 : 2 ^ den.log2 ≤ den := Nat.log2_self_le (by omega)
  have hden2 : den < 2 ^ (den.log2 + 1) := Nat.lt_log2_self
  obtain ⟨g, hg⟩ : ∃ g : Nat, max (-1074) ((num.log2 : Int) - den.log2 - 53) = g - 1074 :=
    ⟨(max (-1074) ((num.log2 : Int) - den.log2 - 53) + 1074).toNat, by omega⟩
  have hupper : num * finest < den * 2 ^ (g + 54) :=
    calc num * finest < 2 ^ (num.log2 + 1) * finest :=
          Nat.mul_lt_mul_of_pos_right hnum2 finest_pos
      _ = 2 ^ (num.log2 + 1 + 1074) := pow_mul_finest _
      _ ≤ 2 ^ (den.log2 + (g + 54)) := Nat.pow_le_pow_right (by decide) (by omega)
      _ = 2 ^ den.log2 * 2 ^ (g + 54) := Nat.pow_add _ _ _
      _ ≤ den * 2 ^ (g + 54) := Nat.mul_le_mul_right _ hden1
  have hlower : 0 < g → den * 2 ^ (g + 52) ≤ num * finest := fun hpos =>
    calc den * 2 ^ (g + 52) ≤ 2 ^ (den.log2 + 1) * 2 ^ (g + 52) :=
          Nat.mul_le_mul_right _ (Nat.le_of_lt hden2)
      _ = 2 ^ (den.log2 + 1 + (g + 52)) := (Nat.pow_add _ _ _).symm
      _ ≤ 2 ^ (num.log2 + 1074) := Nat.pow_le_pow_right (by decide) (by omega)
      _ = 2 ^ num.log2 * finest := (pow_mul_finest _).symm
      _ ≤ num * finest := Nat.mul_le_mul_right _ hnum1
  simp only [scaleOf, hg, Nat.pow_eq, le_scaled_iff num hden]
  split
  · rename_i hle
    exact ⟨g + 1, by omega, hupper, .inr hle⟩
  · rename_i hlt
    refine ⟨g, rfl, Nat.lt_of_not_le hlt, ?_⟩
    rcases Nat.eq_zero_or_pos g with hzero | hpos
    · exact .inl hzero
    · exact .inr (hlower hpos)

/-- A ratio has one step. -/
theorem IsSteps.unique {num den t u : Nat} (ht : IsSteps num den t) (hu : IsSteps num den u) :
    t = u := by
  have hle : ∀ {a b : Nat}, IsSteps num den a → IsSteps num den b → a ≤ b := by
    intro a b ha hb
    by_contra hlt
    have hlow : den * 2 ^ (a + 52) ≤ num * finest := ha.least.resolve_left (by omega)
    have hpow : den * 2 ^ (b + 53) ≤ den * 2 ^ (a + 52) :=
      Nat.mul_le_mul_left _ (Nat.pow_le_pow_right (by decide) (by omega))
    exact absurd hb.lt (Nat.not_lt.2 (Nat.le_trans hpow hlow))
  exact Nat.le_antisymm (hle ht hu) (hle hu ht)

/-! ## The rounding -/

/-- The magnitude nearest to a ratio: its step, and the ratio rounded in
units of the step. -/
theorem nearestMagnitude_eq {num den t : Nat} (hnum : 0 < num) (hden : 0 < den)
    (ht : IsSteps num den t) :
    nearestMagnitude num den =
      min infiniteMagnitude (t * 2 ^ 52 + roundQuotient (num * finest) (den * 2 ^ t)) := by
  obtain ⟨u, hscale, hu⟩ := isSteps_scaleOf hnum hden
  obtain rfl : u = t := hu.unique ht
  obtain ⟨k, hk, hn, hd⟩ := scaled_eq num den (t := u)
  have hsteps : ((u : Int) - 1074 + 1074).toNat = u := by omega
  simp only [nearestMagnitude, if_neg (Nat.pos_iff_ne_zero.1 hnum), hscale, hsteps, Nat.pow_eq]
  rw [hn, hd, roundQuotient_mul_right _ _ hk]

@[simp] theorem nearestMagnitude_zero (den : Nat) : nearestMagnitude 0 den = 0 := rfl

/-- A common factor of both terms does not matter. -/
theorem nearestMagnitude_mul_right (num : Nat) {den k : Nat} (hden : 0 < den) (hk : 0 < k) :
    nearestMagnitude (num * k) (den * k) = nearestMagnitude num den := by
  rcases Nat.eq_zero_or_pos num with rfl | hnum
  · simp
  · obtain ⟨t, -, ht⟩ := isSteps_scaleOf hnum hden
    rw [nearestMagnitude_eq (Nat.mul_pos hnum hk) (Nat.mul_pos hden hk) (ht.mul_right hk),
      nearestMagnitude_eq hnum hden ht, Nat.mul_right_comm num, Nat.mul_right_comm den,
      roundQuotient_mul_right _ _ hk]

/-- Equal ratios are rounded alike. -/
theorem nearestMagnitude_congr {a b c d : Nat} (hb : 0 < b) (hd : 0 < d) (h : a * d = c * b) :
    nearestMagnitude a b = nearestMagnitude c d := by
  rw [← nearestMagnitude_mul_right a hb hd, ← nearestMagnitude_mul_right c hd hb, h,
    Nat.mul_comm b d]

theorem nearestMagnitude_le (num den : Nat) : nearestMagnitude num den ≤ infiniteMagnitude := by
  rcases Nat.eq_zero_or_pos num with rfl | hnum
  · exact Nat.zero_le _
  · simp only [nearestMagnitude, if_neg (Nat.pos_iff_ne_zero.1 hnum)]
    exact Nat.min_le_left _ _

/-! ## The value of a magnitude -/

/-- A magnitude counts its step and, in units of the step, its significand. -/
theorem exists_steps_magnitude (m : Nat) :
    ∃ t : Nat, scale m = t - 1074 ∧ m = t * 2 ^ 52 + significand m ∧
      significand m < 2 ^ 53 ∧ (t = 0 ∨ 2 ^ 52 ≤ significand m) := by
  by_cases hm : m < 2 ^ 52
  · have hscale : scale m = -1074 := if_pos hm
    have hsig : significand m = m := if_pos hm
    exact ⟨0, by omega, by omega, by omega, .inl rfl⟩
  · have hscale : scale m = (m / 2 ^ 52 : Nat) - 1075 := if_neg hm
    have hsig : significand m = 2 ^ 52 + m % 2 ^ 52 := if_neg hm
    exact ⟨m / 2 ^ 52 - 1, by omega, by omega, by omega, .inr (by omega)⟩

/-- The value of a magnitude in units of the finest doubles. -/
theorem ratio_eq {m t : Nat} (ht : scale m = t - 1074) :
    0 < (ratio m).2 ∧ (ratio m).1 * finest = (ratio m).2 * (significand m * 2 ^ t) := by
  unfold ratio
  simp only [ht, Nat.pow_eq]
  split
  · rename_i hle
    have hsum : ((t : Int) - 1074).toNat + 1074 = t := by omega
    refine ⟨Nat.one_pos, ?_⟩
    rw [Nat.mul_assoc, pow_mul_finest, hsum, Nat.one_mul]
  · rename_i hlt
    refine ⟨Nat.two_pow_pos _, ?_⟩
    have hfinest : 2 ^ (-((t : Int) - 1074)).toNat * 2 ^ t = finest :=
      pow_mul_pow_eq_finest (by omega)
    rw [← hfinest]
    ring

/-- The value of a finite magnitude is rounded to that magnitude. -/
theorem nearestMagnitude_ratio {m : Nat} (hm : m < infiniteMagnitude) :
    nearestMagnitude (ratio m).1 (ratio m).2 = m := by
  obtain ⟨t, hscale, hsplit, hlt, hleast⟩ := exists_steps_magnitude m
  obtain ⟨hden, hvalue⟩ := ratio_eq hscale
  rcases Nat.eq_zero_or_pos (ratio m).1 with hzero | hnum
  · have hpow : 0 < 2 ^ t := Nat.two_pow_pos t
    have hproduct : (ratio m).2 * (significand m * 2 ^ t) = 0 := by
      rw [← hvalue, hzero, Nat.zero_mul]
    have hsig : significand m = 0 := by
      rcases Nat.mul_eq_zero.1 hproduct with h | h
      · omega
      · exact (Nat.mul_eq_zero.1 h).resolve_right (Nat.pos_iff_ne_zero.1 hpow)
    rw [hzero, nearestMagnitude_zero]
    omega
  · have hsteps : IsSteps (ratio m).1 (ratio m).2 t := by
      constructor
      · rw [hvalue, Nat.pow_add, Nat.mul_comm (2 ^ t)]
        exact Nat.mul_lt_mul_of_pos_left
          (Nat.mul_lt_mul_of_pos_right hlt (Nat.two_pow_pos t)) hden
      · refine hleast.imp id fun hle => ?_
        rw [hvalue, Nat.pow_add, Nat.mul_comm (2 ^ t)]
        exact Nat.mul_le_mul_left _ (Nat.mul_le_mul_right _ hle)
    have hround : roundQuotient ((ratio m).1 * finest) ((ratio m).2 * 2 ^ t) = significand m := by
      rw [hvalue, Nat.mul_left_comm]
      exact roundQuotient_mul_self _ (Nat.mul_pos hden (Nat.two_pow_pos t))
    rw [nearestMagnitude_eq hnum hden hsteps, hround, ← hsplit]
    exact Nat.min_eq_right (Nat.le_of_lt hm)

/-! ## The ends -/

/-- Less than half of the finest double is rounded to zero. -/
theorem nearestMagnitude_eq_zero {num den : Nat} (h : 2 * (num * finest) < den) :
    nearestMagnitude num den = 0 := by
  rcases Nat.eq_zero_or_pos num with rfl | hnum
  · rfl
  · have hsteps : IsSteps num den 0 := by
      refine ⟨?_, .inl rfl⟩
      calc num * finest < den := by omega
        _ ≤ den * 2 ^ (0 + 53) := Nat.le_mul_of_pos_right den (Nat.two_pow_pos _)
    rw [nearestMagnitude_eq hnum (by omega) hsteps, Nat.pow_zero, Nat.mul_one,
      roundQuotient_eq_zero h]
    rfl

/-- Below `2 ^ 1023` ratios are rounded to finite magnitudes. -/
theorem nearestMagnitude_lt_infinite {num den : Nat} (hden : 0 < den)
    (h : num < den * 2 ^ 1023) : nearestMagnitude num den < infiniteMagnitude := by
  rcases Nat.eq_zero_or_pos num with rfl | hnum
  · rw [nearestMagnitude_zero]
    decide
  obtain ⟨t, -, ht⟩ := isSteps_scaleOf hnum hden
  have hsteps : t = 0 ∨ t + 52 < 1023 + 1074 := by
    refine ht.least.imp id fun hle => ?_
    generalize 1023 = k at h ⊢
    have hpow : den * 2 ^ (t + 52) < den * 2 ^ (k + 1074) := by
      calc den * 2 ^ (t + 52) ≤ num * finest := hle
        _ < den * 2 ^ k * finest := Nat.mul_lt_mul_of_pos_right h finest_pos
        _ = den * 2 ^ (k + 1074) := by rw [Nat.mul_assoc, pow_mul_finest]
    exact (Nat.pow_lt_pow_iff_right (by decide)).1 (Nat.lt_of_mul_lt_mul_left hpow)
  have hround := ht.roundQuotient_le
  rw [nearestMagnitude_eq hnum hden ht, infiniteMagnitude, Nat.pow_eq]
  refine Nat.lt_of_le_of_lt (Nat.min_le_right _ _) ?_
  omega

/-- From `2 ^ 1024` on ratios are rounded to the infinite magnitude. -/
theorem nearestMagnitude_eq_infinite {num den : Nat} (hden : 0 < den)
    (h : den * 2 ^ 1024 ≤ num) : nearestMagnitude num den = infiniteMagnitude := by
  have hnum : 0 < num := Nat.lt_of_lt_of_le (Nat.mul_pos hden (Nat.two_pow_pos _)) h
  obtain ⟨t, -, ht⟩ := isSteps_scaleOf hnum hden
  have hsteps : 1024 + 1074 < t + 53 := by
    generalize 1024 = k at h ⊢
    have hpow : den * 2 ^ (k + 1074) < den * 2 ^ (t + 53) := by
      calc den * 2 ^ (k + 1074) = den * 2 ^ k * finest := by rw [Nat.mul_assoc, pow_mul_finest]
        _ ≤ num * finest := Nat.mul_le_mul_right _ h
        _ < den * 2 ^ (t + 53) := ht.lt
    exact (Nat.pow_lt_pow_iff_right (by decide)).1 (Nat.lt_of_mul_lt_mul_left hpow)
  have hround := ht.le_roundQuotient hden (by omega)
  rw [nearestMagnitude_eq hnum hden ht]
  refine Nat.min_eq_left ?_
  rw [infiniteMagnitude, Nat.pow_eq]
  omega

end ReferenceDraws.Double
