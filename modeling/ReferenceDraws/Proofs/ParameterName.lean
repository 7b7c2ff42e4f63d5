import Mathlib.Data.List.TakeWhile
import ReferenceDraws.ParameterName
import ReferenceDraws.Proofs.Double.Written
import ReferenceDraws.Proofs.Outcome

/-!
# The grammar of parameter names

Which texts are parameter names, and that a name and its text determine each
other.

* The grammar.  `Names` says which texts name a variable or an element of
  one, without regard to how a text is read.
* Parts.  A text is cut at its first opening bracket (`resolve_of_cut`), and
  what stands between the brackets is an index exactly when it is the canonical
  numeral of a positive word (`indexOf_eq_ok_iff`).
* Names.  `resolve_eq_ok_iff` reads the grammar, `names_display` writes it, and
  `eq_display_of_names` says that there is no other text of a name.
  `resolve_inverts_display` puts them together.
-/

namespace ReferenceDraws.ParameterName

/-! ## The grammar -/

/-- A text may name a variable: it is not empty and has no brackets. -/
def IsVariable (text : String) : Prop :=
  text ≠ "" ∧ '[' ∉ text.toList ∧ ']' ∉ text.toList

/-- Characters are the decimal digits of a number, without a sign and without
leading zeros. -/
structure IsCanonical (digits : List Char) (n : Nat) : Prop where
  isDigit : ∀ c ∈ digits, c.isDigit = true
  head_ne_zero : digits.head? ≠ some '0'
  value : digitsToNat digits = n

/-- A text names a whole variable, or an element of it by a number from one to
the greatest word. -/
inductive Names : String → String → Option Nat → Prop
  | whole {base : String} (hbase : IsVariable base) : Names base base none
  | element {base : String} {digits : List Char} {n : Nat} (hbase : IsVariable base)
    (hdigits : IsCanonical digits n) (hpos : 1 ≤ n) (hmax : n ≤ 2 ^ 64 - 1) :
    Names (base ++ "[" ++ String.ofList digits ++ "]") base (some n)

/-- A name that was constructed or read. -/
inductive IsMade (p : ParameterName) : Prop
  | scalar {base : String} (h : scalar base = .ok p)
  | indexed {base : String} {index : UInt64} (h : indexed base index = .ok p)
  | resolve {text : String} (h : resolve text = .ok p)

theorem Names.isVariable {text base : String} {n : Option Nat} (h : Names text base n) :
    IsVariable base := by
  cases h with
  | whole hbase => exact hbase
  | element hbase _ _ _ => exact hbase

/-- The canonical digits of a positive number are the ones that are written. -/
theorem IsCanonical.eq_decimal {digits : List Char} {n : Nat} (h : IsCanonical digits n)
    (hpos : 1 ≤ n) : digits = decimal n := by
  have hne : digits ≠ [] := by
    rintro rfl
    exact absurd h.value (by rw [show digitsToNat [] = 0 from rfl]; omega)
  rw [decimal, ← h.value, toDigits_digitsToNat h.isDigit h.head_ne_zero hne]

/-- The digits that are written of a positive number are canonical. -/
theorem isCanonical_decimal {n : Nat} (hpos : 1 ≤ n) : IsCanonical (decimal n) n where
  isDigit _ hc := Nat.isDigit_of_mem_toDigits (by decide) (by decide) hc
  head_ne_zero := Numeral.head?_toDigits hpos
  value := digitsToNat_toDigits n

/-! ## Parts -/

variable {p q : ParameterName} {base text : String} {index : UInt64}

theorem eq_of_parts (hbase : p.base = q.base) (hindex : p.index = q.index) : p = q := by
  cases p
  cases q
  cases hbase
  cases hindex
  rfl

theorem checkBase_eq_ok_iff : checkBase base text = .ok () ↔ IsVariable base := by
  have hbrackets : base.toList.any isBracket = true ↔ '[' ∈ base.toList ∨ ']' ∈ base.toList := by
    simp only [List.any_eq_true, isBracket, Bool.or_eq_true, decide_eq_true_eq]
    constructor
    · rintro ⟨c, hc, rfl | rfl⟩
      · exact .inl hc
      · exact .inr hc
    · rintro (hc | hc)
      · exact ⟨'[', hc, .inl rfl⟩
      · exact ⟨']', hc, .inr rfl⟩
  rw [checkBase, IsVariable, ← not_or, ← hbrackets]
  by_cases hempty : base = ""
  · simp [hempty]
  · by_cases hany : base.toList.any isBracket = true
    · simp [hempty, hany]
    · simp [hempty, hany]

theorem scalar_eq_ok_iff :
    scalar base = .ok p ↔ IsVariable base ∧ p.base = base ∧ p.index = none := by
  rw [scalar, bind_eq_ok_iff]
  constructor
  · rintro ⟨⟨⟩, hcheck, h⟩
    cases h
    exact ⟨checkBase_eq_ok_iff.1 hcheck, rfl, rfl⟩
  · rintro ⟨hbase, hp, hindex⟩
    exact ⟨(), checkBase_eq_ok_iff.2 hbase, congrArg Except.ok (eq_of_parts hp.symm hindex.symm)⟩

theorem element_eq_ok_iff :
    element base text index = .ok p ↔ IsVariable base ∧ p.base = base ∧ p.index = some index := by
  rw [element, bind_eq_ok_iff]
  constructor
  · rintro ⟨⟨⟩, hcheck, h⟩
    split at h
    · cases h
    · cases h
      exact ⟨checkBase_eq_ok_iff.1 hcheck, rfl, rfl⟩
  · rintro ⟨hbase, hp, hindex⟩
    have hne : index ≠ 0 := fun h0 => p.index_ne_zero (h0 ▸ hindex)
    refine ⟨(), checkBase_eq_ok_iff.2 hbase, ?_⟩
    rw [dif_neg hne]
    exact congrArg Except.ok (eq_of_parts hp.symm hindex.symm)

/-- A text without an opening bracket is the name of a variable or nothing. -/
theorem resolve_of_not_mem (h : '[' ∉ text.toList) :
    resolve text =
      if text.toList.contains ']' then .error ⟨text, .strayClosing⟩ else scalar text := by
  have hcut : text.toList.dropWhile (· ≠ '[') = [] := by
    rw [List.dropWhile_eq_nil_iff]
    intro c hc
    rw [decide_eq_true_eq]
    rintro rfl
    exact h hc
  simp only [resolve, hcut]

/-- A text is cut at its first opening bracket. -/
theorem resolve_of_cut {cs rest : List Char} (htext : text.toList = cs ++ '[' :: rest)
    (h : '[' ∉ cs) :
    resolve text = match beforeClosing? rest with
      | none => .error ⟨text, .noTrailingBracket⟩
      | some inner => indexOf text inner >>= element (String.ofList cs) text := by
  have hall : ∀ c ∈ cs, decide (c ≠ '[') = true := by
    intro c hc
    rw [decide_eq_true_eq]
    rintro rfl
    exact h hc
  have htake : text.toList.takeWhile (· ≠ '[') = cs := by
    rw [htext, List.takeWhile_append_of_pos hall]
    simp
  have hdrop : text.toList.dropWhile (· ≠ '[') = '[' :: rest := by
    rw [htext, List.dropWhile_append_of_pos hall]
    simp
  cases hinner : beforeClosing? rest with
  | none => simp only [resolve, hdrop, hinner]
  | some inner => simp only [resolve, htake, hdrop, hinner]

theorem beforeClosing?_eq_some_iff {cs inner : List Char} :
    beforeClosing? cs = some inner ↔ cs = inner ++ [']'] := by
  rw [beforeClosing?]
  constructor
  · intro h
    split at h
    · rename_i hlast
      cases h
      exact (List.dropLast_append_getLast? _ hlast).symm
    · cases h
  · rintro rfl
    simp

/-- A positive index is read from its canonical digits and nothing else. -/
theorem indexOf_eq_ok_iff {inner : List Char} (hindex : index ≠ 0) :
    indexOf text inner = .ok index ↔ IsCanonical inner index.toNat := by
  have hpos : index.toNat ≠ 0 := fun h0 => hindex (UInt64.toNat_inj.1 h0)
  have hsize : UInt64.size = 2 ^ 64 := rfl
  constructor
  · intro h
    rw [indexOf] at h
    split at h
    · cases h
    rename_i hne
    split at h
    · cases h
    rename_i hdigits
    split at h
    · cases h
    rename_i hzeros
    simp only at h
    split at h
    · rename_i hlt
      cases h
      have hvalue : digitsToNat inner = (UInt64.ofNat (digitsToNat inner)).toNat :=
        (UInt64.toNat_ofNat_of_lt' hlt).symm
      refine ⟨?_, ?_, hvalue⟩
      · simpa using hdigits
      · -- A single zero has passed so far, but its value is not positive.
        intro hhead
        obtain ⟨cs, rfl⟩ := List.head?_eq_some_iff.1 hhead
        have hcs : cs = [] := by
          by_contra hcs
          exact hzeros ⟨by simpa using List.length_pos_iff.2 hcs, rfl⟩
        subst hcs
        exact hpos rfl
    · cases h
  · intro h
    have hne : inner ≠ [] := by
      rintro rfl
      exact hpos h.value.symm
    have hdigits : (!inner.all Char.isDigit) = false := by simpa using h.isDigit
    have hlt : digitsToNat inner < UInt64.size := h.value ▸ index.toNat_lt
    rw [indexOf, if_neg hne, hdigits, if_neg (by simp), if_neg fun hz => h.head_ne_zero hz.2]
    simp only [h.value, UInt64.ofNat_toNat]
    exact if_pos (h.value ▸ hlt)

/-! ## Names -/

/-- The texts that are read as a name are those that name its parts. -/
theorem resolve_eq_ok_iff :
    resolve text = .ok p ↔ Names text p.base (p.index.map UInt64.toNat) := by
  constructor
  · intro h
    by_cases hopen : '[' ∈ text.toList
    · obtain ⟨cs, rest, htext, hfirst⟩ := List.eq_append_cons_of_mem hopen
      rw [resolve_of_cut htext hfirst] at h
      split at h
      · cases h
      rename_i inner hinner
      obtain ⟨index, hread, h⟩ := bind_eq_ok_iff.1 h
      obtain ⟨hbase, hp, hindex⟩ := element_eq_ok_iff.1 h
      have hne : index ≠ 0 := fun h0 => p.index_ne_zero (h0 ▸ hindex)
      have hpos : index.toNat ≠ 0 := fun h0 => hne (UInt64.toNat_inj.1 h0)
      have hlt : index.toNat < 2 ^ 64 := index.toNat_lt
      have hparts : text = String.ofList cs ++ "[" ++ String.ofList inner ++ "]" := by
        apply String.toList_injective
        simp [htext, beforeClosing?_eq_some_iff.1 hinner]
      rw [hparts, hp, hindex]
      exact .element hbase ((indexOf_eq_ok_iff hne).1 hread) (by omega) (by omega)
    · rw [resolve_of_not_mem hopen] at h
      split at h
      · cases h
      · obtain ⟨hbase, hp, hindex⟩ := scalar_eq_ok_iff.1 h
        rw [hp, hindex]
        exact .whole hbase
  · intro h
    generalize hp : p.base = base at h
    generalize hn : p.index.map UInt64.toNat = n at h
    cases h with
    | whole hbase =>
      rw [resolve_of_not_mem hbase.2.1, if_neg (by simpa using hbase.2.2)]
      exact scalar_eq_ok_iff.2 ⟨hbase, hp, Option.map_eq_none_iff.1 hn⟩
    | @element _ digits n hbase hdigits hpos hmax =>
      obtain ⟨index, hindex, rfl⟩ := Option.map_eq_some_iff.1 hn
      have hne : index ≠ 0 := fun h0 => p.index_ne_zero (h0 ▸ hindex)
      have hparts : (base ++ "[" ++ String.ofList digits ++ "]").toList =
          base.toList ++ '[' :: (digits ++ [']']) := by simp
      rw [resolve_of_cut hparts hbase.2.1]
      simp only [beforeClosing?_eq_some_iff.2 rfl, (indexOf_eq_ok_iff hne).2 hdigits, ok_bind,
        String.ofList_toList]
      exact element_eq_ok_iff.2 ⟨hbase, hp, hindex⟩

/-- The parts that a text names are those of a name. -/
theorem exists_parts {n : Option Nat} (h : Names text base n) :
    ∃ p : ParameterName, p.base = base ∧ p.index.map UInt64.toNat = n := by
  cases h with
  | whole _ => exact ⟨⟨_, none, by simp⟩, rfl, rfl⟩
  | @element _ digits n _ _ hpos hmax =>
    have hword : (UInt64.ofNat n).toNat = n :=
      UInt64.toNat_ofNat_of_lt' (by rw [show UInt64.size = 2 ^ 64 from rfl]; omega)
    have hne : some (UInt64.ofNat n) ≠ some 0 := by
      intro h0
      rw [Option.some_inj.1 h0, UInt64.toNat_zero] at hword
      omega
    exact ⟨⟨base, some (UInt64.ofNat n), hne⟩, rfl, congrArg some hword⟩

/-- A name of a variable is read from its text. -/
theorem names_display (h : IsVariable p.base) :
    Names p.display p.base (p.index.map UInt64.toNat) := by
  cases hindex : p.index with
  | none =>
    simp only [display, hindex, Option.map_none]
    exact .whole h
  | some index =>
    have hpos : index.toNat ≠ 0 :=
      fun h0 => p.index_ne_zero (hindex.trans (congrArg some (UInt64.toNat_inj.1 h0)))
    have hlt : index.toNat < 2 ^ 64 := index.toNat_lt
    have htext : p.display =
        p.base ++ "[" ++ String.ofList (decimal index.toNat) ++ "]" := by
      apply String.toList_injective
      simp [display, hindex, indexedText]
    rw [htext, Option.map_some]
    exact .element h (isCanonical_decimal (by omega)) (by omega) (by omega)

/-- A name has no other text than its own. -/
theorem eq_display_of_names (h : Names text p.base (p.index.map UInt64.toNat)) :
    p.display = text := by
  generalize hp : p.base = base at h
  generalize hn : p.index.map UInt64.toNat = n at h
  cases h with
  | whole hbase => simp only [display, Option.map_eq_none_iff.1 hn, hp]
  | @element _ digits n hbase hdigits hpos hmax =>
    obtain ⟨index, hindex, rfl⟩ := Option.map_eq_some_iff.1 hn
    apply String.toList_injective
    simp [display, hindex, indexedText, hp, hdigits.eq_decimal hpos]

/-- Names are made of variables alone. -/
theorem IsMade.isVariable (h : IsMade p) : IsVariable p.base := by
  cases h with
  | scalar h =>
    obtain ⟨hbase, hp, -⟩ := scalar_eq_ok_iff.1 h
    rwa [hp]
  | indexed h =>
    obtain ⟨hbase, hp, -⟩ := element_eq_ok_iff.1 h
    rwa [hp]
  | resolve h => exact (resolve_eq_ok_iff.1 h).isVariable

/-- The texts that are read are those of the grammar.  What is read has the
parts that the text names, and its own text is the one that was read.  A name
that was constructed or read is read from its text, so that no two names have
one text, and the element that it counts from zero is the one before its
index. -/
theorem resolve_inverts_display :
    (∀ text, (∃ p, resolve text = .ok p) ↔ ∃ base n, Names text base n) ∧
      (∀ text p, resolve text = .ok p →
        Names text p.base (p.index.map UInt64.toNat) ∧ p.display = text) ∧
      (∀ p, IsMade p → resolve p.display = .ok p) ∧
      (∀ p q, IsMade p → IsMade q → p.display = q.display → p = q) ∧
      ∀ (p : ParameterName) column, p.column = some column →
        ∃ index, p.index = some index ∧ column.toNat + 1 = index.toNat := by
  have hread : ∀ p, IsMade p → resolve p.display = .ok p :=
    fun p hp => resolve_eq_ok_iff.2 (names_display hp.isVariable)
  refine ⟨fun text => ⟨?_, ?_⟩, ?_, hread, ?_, ?_⟩
  · rintro ⟨p, hp⟩
    exact ⟨_, _, resolve_eq_ok_iff.1 hp⟩
  · rintro ⟨base, n, hnames⟩
    obtain ⟨p, rfl, rfl⟩ := exists_parts hnames
    exact ⟨p, resolve_eq_ok_iff.2 hnames⟩
  · intro text p hp
    exact ⟨resolve_eq_ok_iff.1 hp, eq_display_of_names (resolve_eq_ok_iff.1 hp)⟩
  · intro p q hp hq htext
    have hsame := hread q hq
    rw [← htext, hread p hp] at hsame
    exact Except.ok.inj hsame
  · intro p column hcolumn
    obtain ⟨index, hindex, rfl⟩ := Option.map_eq_some_iff.1 hcolumn
    have hle : 1 ≤ index := by
      rw [UInt64.le_iff_toNat_le]
      refine Nat.pos_of_ne_zero fun h0 => ?_
      exact p.index_ne_zero (hindex.trans (congrArg some (UInt64.toNat_inj.1 h0)))
    refine ⟨index, hindex, ?_⟩
    rw [UInt64.toNat_sub_of_le _ _ hle]
    exact Nat.sub_add_cancel (UInt64.le_iff_toNat_le.1 hle)

/-- The greatest index there is, of a variable whose name is not plain letters,
and the same with a zero before it. -/
theorem resolve_inverts_display_greatest :
    (∃ p, resolve "µ [18446744073709551615]" = .ok p ∧ IsMade p ∧
      p.display = "µ [18446744073709551615]" ∧ resolve p.display = .ok p ∧
      p.column = some 18446744073709551614) ∧
      ¬ ∃ base n, Names "µ[01]" base n := by
  obtain ⟨haccepts, hreads, hmade, -, -⟩ := resolve_inverts_display
  obtain ⟨p, hp, hcolumn⟩ : ∃ p, resolve "µ [18446744073709551615]" = .ok p ∧
      p.column = some 18446744073709551614 := ⟨_, rfl, rfl⟩
  refine ⟨⟨p, hp, .resolve hp, (hreads _ p hp).2, hmade p (.resolve hp), hcolumn⟩, ?_⟩
  rw [← haccepts]
  rintro ⟨q, hq⟩
  cases hq

end ReferenceDraws.ParameterName
