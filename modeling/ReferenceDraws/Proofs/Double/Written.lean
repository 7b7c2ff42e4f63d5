import Mathlib.Data.List.TakeWhile
import ReferenceDraws.Double.Written
import ReferenceDraws.Proofs.Double.Numeral

/-!
# Written doubles

What `Double.render` writes for a finite number is a numeral whose value is
read as that number.

* Parts.  A `Numeral` is a text cut into its digits before and after the
  point and its exponent.  Its fields carry what readers ask of them.
* Digits.  `significant_shortestDigits` says of the digits that are written
  what every form needs of them: the first is no zero, and in their place
  they are read as the number.
* Forms.  Both forms are numerals of that value (`exists_positionalForm`,
  `exists_exponentForm`), and so is every number in every style
  (`exists_render`).
-/

namespace ReferenceDraws

/-! ## Parts -/

/-- One or more decimal digits. -/
structure Digits where
  chars : List Char
  ne_nil : chars ≠ []
  isDigit : ∀ c ∈ chars, c.isDigit = true

/-- The digits of a natural number. -/
def Digits.ofNat (n : Nat) : Digits where
  chars := Nat.toDigits 10 n
  ne_nil := Nat.toDigits_ne_nil
  isDigit _ hc := Nat.isDigit_of_mem_toDigits (by decide) (by decide) hc

/-- Digits, if there are any. -/
def Digits.ofChars? (cs : List Char) (h : ∀ c ∈ cs, c.isDigit = true) : Option Digits :=
  if hne : cs = [] then none else some ⟨cs, hne, h⟩

@[simp] theorem Digits.getD_ofChars? (cs : List Char) (h : ∀ c ∈ cs, c.isDigit = true) :
    ((ofChars? cs h).map chars).getD [] = cs := by
  unfold ofChars?
  split
  · rename_i hne
    exact hne.symm
  · rfl

/-- The text of a numeral without its sign, cut into its parts. -/
structure Numeral where
  /-- The digits before the point. -/
  whole : Digits
  /-- The digits after the point, if there is one. -/
  fraction : Option Digits
  /-- The exponent, if there is one: whether it is negative, and its digits. -/
  exponent : Option (Bool × Digits)
  /-- No zero stands before another digit. -/
  no_leading_zero : whole.chars.head? = some '0' → whole.chars = ['0']

namespace Numeral

/-- The point and the digits after it. -/
def fractionText (n : Numeral) : List Char := n.fraction.elim [] fun ds => '.' :: ds.chars

/-- The exponent after its letter. -/
def exponentText (n : Numeral) : List Char :=
  n.exponent.elim [] fun e => 'e' :: (if e.1 then '-' else '+') :: e.2.chars

/-- The parts put together. -/
def text (n : Numeral) : List Char := n.whole.chars ++ (n.fractionText ++ n.exponentText)

/-- The digits after the point. -/
def fractionChars (n : Numeral) : Option (List Char) := n.fraction.map Digits.chars

/-- The exponent as an integer. -/
def exponentValue (n : Numeral) : Option Int :=
  n.exponent.map fun e =>
    if e.1 then -(digitsToNat e.2.chars : Int) else digitsToNat e.2.chars

/-- The numeral with a sign. -/
def decimal (negative : Bool) (n : Numeral) : Decimal :=
  .ofParts negative n.whole.chars (n.fractionChars.getD []) (n.exponentValue.getD 0)

/-- The first digit of a positive number is no zero. -/
theorem head?_toDigits {n : Nat} (hn : 0 < n) : (Nat.toDigits 10 n).head? ≠ some '0' := by
  induction n using Nat.strongRecOn with
  | ind n ih =>
    by_cases hlt : n < 10
    · rw [Nat.toDigits_of_lt_base hlt, List.head?_cons]
      simp only [ne_eq, Option.some_inj, Nat.digitChar_eq_zero]
      omega
    · rw [Nat.toDigits_of_base_le (by decide) (by omega)]
      have hrest := ih (n / 10) (by omega) (by omega)
      rw [List.head?_append]
      cases hhead : (Nat.toDigits 10 (n / 10)).head? with
      | none => exact absurd (List.head?_eq_none_iff.1 hhead) Nat.toDigits_ne_nil
      | some c => rwa [hhead] at hrest

/-- A natural number as a numeral. -/
def ofNat (n : Nat) : Numeral where
  whole := .ofNat n
  fraction := none
  exponent := none
  no_leading_zero h := by
    rcases Nat.eq_zero_or_pos n with rfl | hn
    · rfl
    · exact absurd h (head?_toDigits hn)

@[simp] theorem text_ofNat (n : Nat) : (ofNat n).text = Nat.toDigits 10 n := by
  simp [text, fractionText, exponentText, ofNat, Digits.ofNat]

end Numeral

namespace Double

/-! ## Digits -/

/-- Digits without a leading zero that, the first of them counting
`10 ^ e`, are read as a magnitude. -/
structure Significant (m : Nat) (ds : List Char) (e : Int) : Prop where
  ne_nil : ds ≠ []
  isDigit : ∀ c ∈ ds, c.isDigit = true
  head_ne_zero : ds.head? ≠ some '0'
  reads : ∀ negative,
    Decimal.toDouble ⟨negative, digitsToNat ds, e + 1 - ds.length⟩ = ofMagnitude negative m

/-- What is left of digits when the zeros at their end are dropped. -/
theorem exists_zeros (cs : List Char) :
    ∃ k, cs = (cs.reverse.dropWhile (· = '0')).reverse ++ List.replicate k '0' := by
  have hzeros : cs.reverse.takeWhile (· = '0') =
      List.replicate (cs.reverse.takeWhile (· = '0')).length '0' := by
    refine List.eq_replicate_iff.2 ⟨rfl, fun c hc => ?_⟩
    have hzero := List.mem_takeWhile_imp hc
    exact of_decide_eq_true hzero
  refine ⟨(cs.reverse.takeWhile (· = '0')).length, ?_⟩
  calc cs = (cs.reverse.takeWhile (· = '0') ++ cs.reverse.dropWhile (· = '0')).reverse := by
        rw [List.takeWhile_append_dropWhile, List.reverse_reverse]
    _ = (cs.reverse.dropWhile (· = '0')).reverse ++ (cs.reverse.takeWhile (· = '0')).reverse :=
        List.reverse_append
    _ = _ := by
        conv_lhs => rw [hzeros, List.reverse_replicate]

/-- The digits of a decimal without the zeros at their end are significant. -/
theorem significant_digitsOf {m n : Nat} {p : Int} (hn : 0 < n)
    (hreads : ∀ negative, Decimal.toDouble ⟨negative, n, p⟩ = ofMagnitude negative m) :
    Significant m (digitsOf (n, p)).1 (digitsOf (n, p)).2 := by
  obtain ⟨k, hk⟩ := exists_zeros (Nat.toDigits 10 n)
  simp only [digitsOf]
  generalize ((Nat.toDigits 10 n).reverse.dropWhile (· = '0')).reverse = kept at hk ⊢
  have hvalue : n = digitsToNat kept * 10 ^ k := by
    rw [← digitsToNat_append_zeros, ← hk, digitsToNat_toDigits]
  have hne : kept ≠ [] := by
    rintro rfl
    have hzero : n = 0 := hvalue.trans (Nat.zero_mul _)
    omega
  refine ⟨hne, fun c hc => ?_, ?_, fun negative => ?_⟩
  · have hmem : c ∈ Nat.toDigits 10 n := hk ▸ List.mem_append_left _ hc
    exact Nat.isDigit_of_mem_toDigits (by decide) (by decide) hmem
  · have hhead := Numeral.head?_toDigits hn
    rwa [hk, List.head?_append_of_ne_nil _ hne] at hhead
  · have hexponent : p + (Nat.toDigits 10 n).length - 1 + 1 - kept.length = p + k := by
      rw [hk, List.length_append, List.length_replicate]
      omega
    rw [hexponent, ← hreads negative]
    refine Decimal.toDouble_congr rfl ?_
    rw [hvalue, Decimal.value_shift negative negative]

/-- The digits written for a positive finite magnitude are significant. -/
theorem significant_shortestDigits {m : Nat} (hpos : 0 < m) (hm : m < infiniteMagnitude) :
    Significant m (shortestDigits m).1 (shortestDigits m).2 := by
  have hbound : m < 2 ^ 63 := Nat.lt_trans hm (by decide)
  rw [shortestDigits]
  cases hshortest : shortest m with
  | mk n p =>
    have hreads := toDouble_of_readsBack hbound (readsBack_shortest hm hshortest)
    refine significant_digitsOf ?_ hreads
    rcases Nat.eq_zero_or_pos n with rfl | hn
    · have hzero := hreads false
      rw [Decimal.toDouble_zero] at hzero
      have hmagnitude := congrArg magnitude hzero
      rw [magnitude_ofMagnitude _ (by decide), magnitude_ofMagnitude _ hbound] at hmagnitude
      omega
    · exact hn

/-! ## Forms -/

/-- A text is a numeral with a point or an exponent that is read as a magnitude. -/
structure Writes (m : Nat) (text : List Char) (n : Numeral) : Prop where
  text_eq : text = n.text
  not_integer : n.fraction ≠ none ∨ n.exponent ≠ none
  reads : ∀ negative, (n.decimal negative).toDouble = ofMagnitude negative m

/-- A numeral of significant digits, zeros at its end aside, is read as their magnitude. -/
theorem Significant.reads_decimal {m k : Nat} {ds : List Char} {e : Int}
    (h : Significant m ds e) {n : Numeral}
    (hdigits : digitsToNat (n.whole.chars ++ n.fractionChars.getD []) = digitsToNat ds * 10 ^ k)
    (hexponent : n.exponentValue.getD 0 - (n.fractionChars.getD []).length + k =
      e + 1 - ds.length) (negative : Bool) :
    (n.decimal negative).toDouble = ofMagnitude negative m := by
  rw [← h.reads negative, ← hexponent]
  refine Decimal.toDouble_congr rfl ?_
  rw [Numeral.decimal, Decimal.ofParts, hdigits, Decimal.value_shift negative negative]

theorem isDigit_of_mem_zeros {k : Nat} {c : Char} (hc : c ∈ List.replicate k '0') :
    c.isDigit = true := by
  rw [List.eq_of_mem_replicate hc]
  rfl

/-- All digits stand before the point, with zeros up to it. -/
theorem exists_padded {m : Nat} {ds : List Char} {e : Int} (h : Significant m ds e)
    (hlength : ds.length ≤ e + 1) : ∃ n, Writes m (positionalForm ds e) n := by
  have hpos : 0 < ds.length := List.length_pos_of_ne_nil h.ne_nil
  have he : 0 ≤ e := by omega
  generalize hk : e.toNat + 1 - ds.length = k
  have hfull : (ds ++ List.replicate k '0').length = e.toNat + 1 := by
    rw [List.length_append, List.length_replicate]
    omega
  have htext : positionalForm ds e = ds ++ List.replicate k '0' ++ ['.', '0'] := by
    have htake := List.take_of_length_le (Nat.le_of_eq hfull)
    have hdrop := List.drop_eq_nil_of_le (Nat.le_of_eq hfull)
    simp only [positionalForm, if_pos he, hk, htake, hdrop, if_true]
  refine ⟨⟨⟨ds ++ List.replicate k '0', by simp [h.ne_nil], fun c hc => ?_⟩,
    some ⟨['0'], by simp, by simp⟩, none, fun hhead => ?_⟩,
    ⟨?_, .inl (by simp), h.reads_decimal (k := k + 1) ?_ ?_⟩⟩
  · exact (List.mem_append.1 hc).elim (h.isDigit c) isDigit_of_mem_zeros
  · rw [List.head?_append_of_ne_nil _ h.ne_nil] at hhead
    exact absurd hhead h.head_ne_zero
  · simp [htext, Numeral.text, Numeral.fractionText, Numeral.exponentText]
  · show digitsToNat (ds ++ List.replicate k '0' ++ List.replicate 1 '0') = _
    rw [digitsToNat_append_zeros, digitsToNat_append_zeros, Nat.mul_assoc, ← Nat.pow_add]
  · show (0 : Int) - (1 : Nat) + (k + 1 : Nat) = e + 1 - ds.length
    omega

/-- The point stands between two digits. -/
theorem exists_pointed {m : Nat} {ds : List Char} {e : Int} (h : Significant m ds e)
    (he : 0 ≤ e) (hlength : e + 1 < ds.length) : ∃ n, Writes m (positionalForm ds e) n := by
  have hpad : e.toNat + 1 - ds.length = 0 := by omega
  have hdrop : ds.drop (e.toNat + 1) ≠ [] := by
    rw [ne_eq, List.drop_eq_nil_iff]
    omega
  have htext : positionalForm ds e = ds.take (e.toNat + 1) ++ '.' :: ds.drop (e.toNat + 1) := by
    simp only [positionalForm, if_pos he, hpad, List.replicate_zero, List.append_nil, if_neg hdrop]
  refine ⟨⟨⟨ds.take (e.toNat + 1), by simp [h.ne_nil], fun c hc => ?_⟩,
    some ⟨ds.drop (e.toNat + 1), hdrop, fun c hc => ?_⟩, none, fun hhead => ?_⟩,
    ⟨?_, .inl (by simp), h.reads_decimal (k := 0) ?_ ?_⟩⟩
  · exact h.isDigit c (List.mem_of_mem_take hc)
  · exact h.isDigit c (List.mem_of_mem_drop hc)
  · rw [List.head?_take, if_neg (by omega)] at hhead
    exact absurd hhead h.head_ne_zero
  · simp [htext, Numeral.text, Numeral.fractionText, Numeral.exponentText]
  · show digitsToNat (ds.take (e.toNat + 1) ++ ds.drop (e.toNat + 1)) = _
    rw [List.take_append_drop, Nat.pow_zero, Nat.mul_one]
  · show (0 : Int) - ((ds.drop (e.toNat + 1)).length : Nat) + (0 : Nat) = e + 1 - ds.length
    rw [List.length_drop]
    omega

/-- All digits stand after the point, with zeros before them. -/
theorem exists_small {m : Nat} {ds : List Char} {e : Int} (h : Significant m ds e)
    (he : e < 0) : ∃ n, Writes m (positionalForm ds e) n := by
  have htext : positionalForm ds e =
      '0' :: '.' :: List.replicate (-e - 1).toNat '0' ++ ds := if_neg (by omega)
  refine ⟨⟨⟨['0'], by simp, by simp⟩,
    some ⟨List.replicate (-e - 1).toNat '0' ++ ds, by simp [h.ne_nil], fun c hc => ?_⟩, none,
    fun _ => rfl⟩, ⟨?_, .inl (by simp), h.reads_decimal (k := 0) ?_ ?_⟩⟩
  · exact (List.mem_append.1 hc).elim isDigit_of_mem_zeros (h.isDigit c)
  · simp [htext, Numeral.text, Numeral.fractionText, Numeral.exponentText]
  · show digitsToNat (List.replicate 1 '0' ++ (List.replicate (-e - 1).toNat '0' ++ ds)) = _
    rw [digitsToNat_zeros_append, digitsToNat_zeros_append, Nat.pow_zero, Nat.mul_one]
  · show (0 : Int) - ((List.replicate (-e - 1).toNat '0' ++ ds).length : Nat) + (0 : Nat) =
      e + 1 - ds.length
    rw [List.length_append, List.length_replicate]
    omega

/-- A number with its point in place is a numeral. -/
theorem exists_positionalForm {m : Nat} {ds : List Char} {e : Int} (h : Significant m ds e) :
    ∃ n, Writes m (positionalForm ds e) n := by
  by_cases he : 0 ≤ e
  · by_cases hlength : ds.length ≤ e + 1
    · exact exists_padded h hlength
    · exact exists_pointed h he (by omega)
  · exact exists_small h (by omega)

/-- A number with an exponent is a numeral. -/
theorem exists_exponentForm {m : Nat} {ds : List Char} {e : Int} (h : Significant m ds e) :
    ∃ n, Writes m (exponentForm ds e) n := by
  cases ds with
  | nil => exact absurd rfl h.ne_nil
  | cons d ds =>
    have hd : d.isDigit = true := h.isDigit d (by simp)
    have hds : ∀ c ∈ ds, c.isDigit = true := fun c hc => h.isDigit c (by simp [hc])
    have hexponent : (if e < 0 then -(digitsToNat (Nat.toDigits 10 e.natAbs) : Int)
        else digitsToNat (Nat.toDigits 10 e.natAbs)) = e := by
      rw [digitsToNat_toDigits]
      split <;> omega
    refine ⟨⟨⟨[d], by simp, by simp [hd]⟩, Digits.ofChars? ds hds,
      some (decide (e < 0), .ofNat e.natAbs), fun hhead => ?_⟩,
      ⟨?_, .inr (by simp), h.reads_decimal (k := 0) ?_ ?_⟩⟩
    · exact congrArg (fun c => [c]) (Option.some.inj hhead)
    · have hsign : (if 0 ≤ e then '+' else '-') = if e < 0 then '-' else '+' := by
        by_cases he : 0 ≤ e
        · rw [if_pos he, if_neg (by omega)]
        · rw [if_neg he, if_pos (by omega)]
      cases ds <;> simp [exponentForm, Numeral.text, Numeral.fractionText,
        Numeral.exponentText, Digits.ofChars?, Digits.ofNat, hsign]
    · rw [Numeral.fractionChars, Digits.getD_ofChars?, Nat.pow_zero, Nat.mul_one]
      rfl
    · simp only [Numeral.fractionChars, Digits.getD_ofChars?, Numeral.exponentValue,
        Digits.ofNat, Option.map_some, Option.getD_some, decide_eq_true_eq, hexponent,
        List.length_cons]
      omega

/-- Every positive finite magnitude is written as a numeral that is read as it. -/
theorem exists_form (style : Style) {m : Nat} (hpos : 0 < m) (hm : m < infiniteMagnitude) :
    ∃ n, Writes m (style.form (shortestDigits m)) n := by
  have h := significant_shortestDigits hpos hm
  unfold Style.form
  split
  · exact exists_positionalForm h
  · exact exists_exponentForm h

/-- Zero is written as a numeral. -/
theorem exists_zero : ∃ n, Writes 0 ['0', '.', '0'] n := by
  refine ⟨⟨⟨['0'], by simp, by simp⟩, some ⟨['0'], by simp, by simp⟩, none, fun _ => rfl⟩,
    ⟨rfl, .inl (by simp), fun negative => ?_⟩⟩
  exact Decimal.toDouble_zero negative _

/-- A finite number is written in every style as a numeral after its sign,
and the numeral with that sign is read as the number. -/
theorem exists_render (style : Style) {d : Double} (hd : d.isFinite = true) :
    ∃ n : Numeral, render style d = (if d.isNegative then '-' :: n.text else n.text) ∧
      (n.fraction ≠ none ∨ n.exponent ≠ none) ∧ (n.decimal d.isNegative).toDouble = d := by
  have hm : d.magnitude < infiniteMagnitude := of_decide_eq_true hd
  have hnan : d.isNaN = false := decide_eq_false (Nat.not_lt.2 (Nat.le_of_lt hm))
  have hbody : ∃ n, Writes d.magnitude
      (if d.magnitude = 0 then ['0', '.', '0'] else style.form (shortestDigits d.magnitude)) n := by
    split
    · rename_i hzero
      exact hzero ▸ exists_zero
    · rename_i hne
      exact exists_form style (Nat.pos_of_ne_zero hne) hm
  obtain ⟨n, htext, hreal, hreads⟩ := hbody
  refine ⟨n, ?_, hreal, (hreads d.isNegative).trans (ofMagnitude_magnitude d)⟩
  rw [← htext, render, hnan, hd]
  simp only [Bool.false_eq_true, if_false, if_true]

end Double

end ReferenceDraws
