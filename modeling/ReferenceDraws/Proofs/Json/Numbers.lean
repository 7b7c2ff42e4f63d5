import ReferenceDraws.Json.Printer
import ReferenceDraws.Json.Reading
import ReferenceDraws.Proofs.Double.Written

/-!
# Numbers in JSON text

A number is read back from its own text, whatever text follows that cannot
be taken for more of the number.

* The end of a number.  `EndsNumber` says of the text after a number that
  it does not go on with a digit, a point or an exponent.
* Numerals.  `unsignedNumber_text` follows the reader through the parts of
  a numeral.
* Numbers.  `unsignedNumber_text` reads the numbers that have a text of
  their own (`Number.IsWritable`).
-/

namespace ReferenceDraws.Json

/-- A number has a text of its own: an integer is in the range of its kind,
and a double is finite. -/
def Number.IsWritable : Number → Prop
  | .nat _ => True
  | .negative n => 0 < n.toNat ∧ n.toNat ≤ 2 ^ 63
  | .double d => d.isFinite = true

namespace Reading

open Text (Stream)

/-! ## The end of a number -/

/-- A text does not go on with what a number could contain. -/
def EndsNumber (rest : Stream) : Prop :=
  ∀ c, rest.head? = some (some c) → c.isDigit = false ∧ c ≠ '.' ∧ c ≠ 'e' ∧ c ≠ 'E'

/-- A text does not go on with a digit. -/
def EndsDigits (rest : Stream) : Prop := ∀ c, rest.head? = some (some c) → c.isDigit = false

theorem EndsNumber.endsDigits {rest : Stream} (h : EndsNumber rest) : EndsDigits rest :=
  fun c hc => (h c hc).1

theorem endsDigits_cons {c : Char} {rest : Stream} (hc : c.isDigit = false) :
    EndsDigits (some c :: rest) := by
  intro d hd
  cases hd
  exact hc

theorem dropWhile_isDigit {rest : Stream} (h : EndsDigits rest) :
    rest.takeWhile isDigit = [] ∧ rest.dropWhile isDigit = rest := by
  cases rest with
  | nil => exact ⟨rfl, rfl⟩
  | cons c rest =>
    have hc : isDigit c = false := by
      cases c with
      | none => rfl
      | some c => exact h c rfl
    simp [hc]

/-- Digits are taken up to their end. -/
theorem takeDigits_append {cs : List Char} {rest : Stream}
    (hcs : ∀ c ∈ cs, c.isDigit = true) (hrest : EndsDigits rest) :
    takeDigits (cs.map some ++ rest) = (cs, rest) := by
  obtain ⟨htake, hdrop⟩ := dropWhile_isDigit hrest
  have hall : ∀ c ∈ cs.map some, isDigit c = true := by
    intro c hc
    obtain ⟨d, hd, rfl⟩ := List.mem_map.1 hc
    exact hcs d hd
  rw [takeDigits, List.takeWhile_append_of_pos hall, List.dropWhile_append_of_pos hall, htake,
    hdrop, List.append_nil]
  simp [List.filterMap_map]

/-! ## Numerals -/

variable (n : Numeral) {rest : Stream}

/-- After the exponent of a numeral comes the text after the numeral. -/
theorem exponent?_text (hrest : EndsNumber rest) :
    exponent? (n.exponentText.map some ++ rest) = some (n.exponentValue, rest) := by
  cases hexponent : n.exponent with
  | none =>
    simp only [Numeral.exponentText, Numeral.exponentValue, hexponent, Option.elim_none,
      Option.map_none, List.map_nil, List.nil_append]
    unfold exponent?
    split
    · rename_i c tail
      have hend := hrest c rfl
      rw [if_neg (by simp [hend.2.2])]
    · rfl
  | some e =>
    have hdigits := takeDigits_append e.2.isDigit hrest.endsDigits
    simp only [Numeral.exponentText, Numeral.exponentValue, hexponent, Option.elim_some,
      Option.map_some, List.map_cons, List.cons_append]
    have hsign : exponentSign (some (if e.1 then '-' else '+') :: (e.2.chars.map some ++ rest)) =
        (e.1, e.2.chars.map some ++ rest) := by
      cases e.1 <;> rfl
    simp only [exponent?, true_or, if_true, hsign, hdigits]
    cases hchars : e.2.chars with
    | nil => exact absurd hchars e.2.ne_nil
    | cons c cs => rfl

/-- What follows the digits of a numeral's fraction is no digit. -/
theorem endsDigits_exponentText (hrest : EndsNumber rest) :
    EndsDigits (n.exponentText.map some ++ rest) := by
  unfold Numeral.exponentText
  cases n.exponent with
  | none => exact hrest.endsDigits
  | some e => exact endsDigits_cons rfl

/-- What follows the digits before the point is no digit. -/
theorem endsDigits_fractionText (hrest : EndsNumber rest) :
    EndsDigits (n.fractionText.map some ++ (n.exponentText.map some ++ rest)) := by
  unfold Numeral.fractionText
  cases n.fraction with
  | none => exact endsDigits_exponentText n hrest
  | some ds => exact endsDigits_cons rfl

/-- After the fraction of a numeral comes its exponent. -/
theorem fraction?_text (hrest : EndsNumber rest) :
    fraction? (n.fractionText.map some ++ (n.exponentText.map some ++ rest)) =
      some (n.fractionChars, n.exponentText.map some ++ rest) := by
  cases hfraction : n.fraction with
  | none =>
    simp only [Numeral.fractionText, Numeral.fractionChars, hfraction, Option.elim_none,
      Option.map_none, List.map_nil, List.nil_append]
    unfold fraction?
    split
    · rename_i tail heq
      unfold Numeral.exponentText at heq
      cases hexponent : n.exponent with
      | none =>
        rw [hexponent] at heq
        exact absurd rfl (hrest '.' (congrArg List.head? heq)).2.1
      | some e =>
        rw [hexponent] at heq
        cases heq
    · rfl
  | some ds =>
    have hdigits := takeDigits_append ds.isDigit (endsDigits_exponentText n hrest)
    simp only [Numeral.fractionText, Numeral.fractionChars, hfraction, Option.elim_some,
      Option.map_some, List.map_cons, List.cons_append]
    unfold fraction?
    simp only [hdigits]
    cases hchars : ds.chars with
    | nil => exact absurd hchars ds.ne_nil
    | cons c cs => rfl

/-- The digits before the point are taken whole. -/
theorem wholeDigits?_text (hrest : EndsDigits rest) :
    wholeDigits? (n.whole.chars.map some ++ rest) = some (n.whole.chars, rest) := by
  have hdigits := takeDigits_append n.whole.isDigit hrest
  unfold wholeDigits?
  rw [hdigits]
  split
  · rename_i tail heq
    exact absurd (congrArg Prod.fst heq) n.whole.ne_nil
  · rename_i d ds tail heq
    have hchars : n.whole.chars = '0' :: d :: ds := congrArg Prod.fst heq
    have hzero := n.no_leading_zero (by rw [hchars]; rfl)
    rw [hchars] at hzero
    cases hzero
  · rfl

/-- A numeral is read part by part. -/
theorem unsignedNumber_text (negative : Bool) (hrest : EndsNumber rest) :
    unsignedNumber negative (n.text.map some ++ rest) =
      (.number (classify negative n.whole.chars n.fractionChars n.exponentValue), rest) := by
  have hwhole := wholeDigits?_text n (endsDigits_fractionText n hrest)
  have hfraction := fraction?_text n hrest
  have hexponent := exponent?_text n hrest
  simp only [unsignedNumber, Numeral.text, List.map_append, List.append_assoc, hwhole, hfraction,
    hexponent, Option.bind_eq_bind, Option.bind_some, Option.pure_def]

/-! ## Numbers -/

/-- A numeral that is no integer is classified by its value. -/
theorem classify_of_not_integer (negative : Bool) (h : n.fraction ≠ none ∨ n.exponent ≠ none) :
    classify negative n.whole.chars n.fractionChars n.exponentValue =
      finiteDouble? (n.decimal negative) := by
  unfold classify
  split
  · rename_i hfraction hexponent
    rw [Numeral.fractionChars, Option.map_eq_none_iff] at hfraction
    rw [Numeral.exponentValue, Option.map_eq_none_iff] at hexponent
    simp [hfraction, hexponent] at h
  · rfl

/-- The text of a number without its sign, and whether there is one. -/
theorem exists_unsigned {x : Number} (h : x.IsWritable) :
    ∃ (negative : Bool) (n : Numeral),
      x.render = (if negative then '-' :: n.text else n.text) ∧
      classify negative n.whole.chars n.fractionChars n.exponentValue = some x := by
  cases x with
  | nat k =>
    refine ⟨false, .ofNat k.toNat, by simp [Number.render], ?_⟩
    have hlt : k.toNat < 2 ^ 64 := k.toNat_lt
    show classify false (Nat.toDigits 10 k.toNat) none none = _
    simp only [classify, digitsToNat_toDigits, UInt64.ofNat_toNat]
    exact if_pos (by simpa using hlt)
  | negative k =>
    obtain ⟨hpos, hle⟩ : 0 < k.toNat ∧ k.toNat ≤ 2 ^ 63 := h
    refine ⟨true, .ofNat k.toNat, by simp [Number.render], ?_⟩
    show classify true (Nat.toDigits 10 k.toNat) none none = _
    simp only [classify, digitsToNat_toDigits, UInt64.ofNat_toNat]
    rw [if_neg (by simp)]
    exact if_pos (by simpa using ⟨hpos, hle⟩)
  | double d =>
    obtain ⟨n, htext, hreal, hreads⟩ := Double.exists_render numberStyle h
    refine ⟨d.isNegative, n, htext, ?_⟩
    rw [classify_of_not_integer n _ hreal, finiteDouble?, hreads]
    exact if_pos h

theorem isGap_of_isDigit {c : Char} (hc : c.isDigit = true) : isGap (some c) = false := by
  by_contra hgap
  simp only [isGap, Option.some_inj, Bool.or_eq_true, decide_eq_true_eq,
    Bool.not_eq_false] at hgap
  rcases hgap with ((rfl | rfl) | rfl) | rfl <;> cases hc

/-- A text that starts with a digit is read as a number. -/
theorem parseValue_digit {c : Char} (hc : c.isDigit = true) (fuel : Nat) (rest : Stream) :
    parseValue (fuel + 1) (some c :: rest) = unsignedNumber false (some c :: rest) := by
  have hgap : isGap (some c) = false := isGap_of_isDigit hc
  have hskip : skipBlanks (some c :: rest) = some c :: rest := by
    rw [skipBlanks, List.dropWhile_cons_of_neg (by simp [hgap])]
  rw [parseValue, hskip]
  split
  case h_8 => rename_i heq; cases heq; exact if_pos hc
  case h_9 => rename_i hother; exact absurd rfl (hother c rest)
  -- Every other case is of another first character, which is no digit.
  all_goals rename_i heq; cases heq; cases hc

/-- A number is read from its own text. -/
theorem parseValue_number {x : Number} (h : x.IsWritable) (fuel : Nat)
    (hrest : EndsNumber rest) :
    parseValue (fuel + 1) (x.render.map some ++ rest) = (.number (some x), rest) := by
  obtain ⟨negative, n, htext, hclass⟩ := exists_unsigned h
  have hread := unsignedNumber_text n negative hrest
  rw [hclass] at hread
  rw [htext]
  cases negative with
  | true => exact hread
  | false =>
    obtain ⟨c, cs, hchars⟩ := List.exists_cons_of_ne_nil n.whole.ne_nil
    have hc : c.isDigit = true := n.whole.isDigit c (by simp [hchars])
    have hcons : n.text = c :: (cs ++ (n.fractionText ++ n.exponentText)) := by
      rw [Numeral.text, hchars, List.cons_append]
    rw [hcons] at hread
    rw [if_neg (by simp), hcons, ← hread]
    exact parseValue_digit hc fuel _

end Reading

end ReferenceDraws.Json
