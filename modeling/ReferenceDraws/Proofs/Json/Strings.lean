import ReferenceDraws.Json.Printer
import ReferenceDraws.Json.Reading

/-!
# Strings in JSON text

A string is read back from its own text, whatever characters it has.

* One character.  `pieces?_escapedChar` follows the reader through the text
  of a character, and `Piece.Denotes` says which pieces stand for it.
* A string.  `exists_pieces` is the induction over the characters, and
  `string?_text` the string read.
-/

namespace ReferenceDraws.Json.Reading

open Text (Stream)

variable {c e : Char} (rest : Stream)

/-! ## One character -/

/-- A character stands for itself. -/
theorem pieces?_plain (hslash : c ≠ '\\') (hquote : c ≠ '"') (hcontrol : ¬ c.toNat < 0x20) :
    pieces? (some c :: rest) = (pieces? rest).map fun (more, rest) => (.char c :: more, rest) := by
  rw [pieces?]
  · rw [if_neg (not_or.2 ⟨hslash, hcontrol⟩)]
  · exact hquote
  · exact fun _ _ _ _ _ _ => hslash
  · exact fun _ _ _ => hslash

/-- An escape of one letter. -/
theorem pieces?_short (he : shortEscape? c = some e) :
    pieces? (some '\\' :: some c :: rest) =
      (pieces? rest).map fun (more, rest) => (.char e :: more, rest) := by
  rw [pieces?]
  · cases h : pieces? rest <;> simp [he]
  · intro _ _ _ _ _ _ hu
    rw [hu] at he
    cases he

/-- An escape of four digits. -/
theorem pieces?_unit {a b d : Char} {n : Nat} (hn : hexUnit? a b c d = some n) :
    pieces? (some '\\' :: some 'u' :: some a :: some b :: some c :: some d :: rest) =
      (pieces? rest).map fun (more, rest) => (.unit n :: more, rest) := by
  cases h : pieces? rest <;> simp [pieces?, hn, h]

/-- The digits that are written for a control character give its number. -/
theorem hexUnit?_control : ∀ n < 32,
    hexUnit? '0' '0' (hexDigit (n / 16)) (hexDigit n) = some n := by decide

/-- A piece stands for a character. -/
def Piece.Denotes (p : Piece) (c : Char) : Prop :=
  p = .char c ∨ p = .unit c.toNat ∧ c.toNat < 0x20

/-- A piece of a character is read as that character. -/
theorem pieceChars?_cons {p : Piece} (h : p.Denotes c) (ps : List Piece) :
    pieceChars? (p :: ps) = (pieceChars? ps).map (c :: ·) := by
  rcases h with rfl | ⟨rfl, hcontrol⟩
  · rfl
  · have hhigh : isHighSurrogate c.toNat = false := by
      simp only [isHighSurrogate, Bool.and_eq_false_iff, decide_eq_false_iff_not]
      omega
    have hlow : isLowSurrogate c.toNat = false := by
      simp only [isLowSurrogate, Bool.and_eq_false_iff, decide_eq_false_iff_not]
      omega
    have hchar : Char.ofNat c.toNat = c := Char.ofNat_toNat c
    -- The reader looks at the next piece before it settles on this one.
    cases ps with
    | nil => simp [pieceChars?, hhigh, hlow, hchar]
    | cons q ps => cases q <;> simp [pieceChars?, hhigh, hlow, hchar]

/-- The text of a character is an escape of one letter, an escape of four
digits for a control, or the character. -/
theorem escapedChar_cases (c : Char) :
    (∃ d, escapedChar c = ['\\', d] ∧ shortEscape? d = some c) ∨
      (c.toNat < 0x20 ∧ escapedChar c =
        ['\\', 'u', '0', '0', hexDigit (c.toNat / 16), hexDigit c.toNat]) ∨
      (escapedChar c = [c] ∧ c ≠ '\\' ∧ c ≠ '"' ∧ ¬ c.toNat < 0x20) := by
  unfold escapedChar
  split
  · rename_i hquote
    exact .inl ⟨'"', rfl, congrArg some hquote.symm⟩
  rename_i hquote
  split
  · rename_i hslash
    exact .inl ⟨'\\', rfl, congrArg some hslash.symm⟩
  rename_i hslash
  split
  · rename_i hcontrol
    repeat' split
    case isFalse => exact .inr (.inl ⟨hcontrol, rfl⟩)
    all_goals
      rename_i hletter
      exact .inl ⟨_, rfl, congrArg some hletter.symm⟩
  · rename_i hcontrol
    exact .inr (.inr ⟨rfl, hslash, hquote, hcontrol⟩)

/-- The text of a character is read as a piece that stands for it. -/
theorem pieces?_escapedChar (c : Char) :
    ∃ p : Piece, p.Denotes c ∧ ∀ rest, pieces? ((escapedChar c).map some ++ rest) =
      (pieces? rest).map fun (more, rest) => (p :: more, rest) := by
  rcases escapedChar_cases c with ⟨d, htext, hd⟩ | ⟨hcontrol, htext⟩ |
    ⟨htext, hslash, hquote, hcontrol⟩
  · refine ⟨.char c, .inl rfl, fun rest => ?_⟩
    rw [htext]
    exact pieces?_short rest hd
  · refine ⟨.unit c.toNat, .inr ⟨rfl, hcontrol⟩, fun rest => ?_⟩
    rw [htext]
    exact pieces?_unit rest (hexUnit?_control c.toNat hcontrol)
  · refine ⟨.char c, .inl rfl, fun rest => ?_⟩
    rw [htext]
    exact pieces?_plain rest hslash hquote hcontrol

/-! ## A string -/

/-- The characters of a string are read up to its closing quote. -/
theorem exists_pieces (cs : List Char) :
    ∃ ps, pieces? ((cs.flatMap escapedChar).map some ++ some '"' :: rest) = some (ps, rest) ∧
      pieceChars? ps = some cs := by
  induction cs with
  | nil => exact ⟨[], by simp [pieces?], rfl⟩
  | cons c cs ih =>
    obtain ⟨ps, hps, hchars⟩ := ih
    obtain ⟨p, hp, hread⟩ := pieces?_escapedChar c
    refine ⟨p :: ps, ?_, ?_⟩
    · rw [List.flatMap_cons, List.map_append, List.append_assoc, hread, hps, Option.map_some]
    · rw [pieceChars?_cons hp, hchars, Option.map_some]

/-- The text of a string without its opening quote. -/
theorem renderString_eq (s : String) :
    renderString s = '"' :: (s.toList.flatMap escapedChar ++ ['"']) := rfl

/-- A string is read from its own text. -/
theorem string?_text (s : String) :
    string? ((s.toList.flatMap escapedChar ++ ['"']).map some ++ rest) = some (some s, rest) := by
  obtain ⟨ps, hps, hchars⟩ := exists_pieces rest s.toList
  rw [string?, List.map_append, List.append_assoc, List.map_singleton, List.singleton_append, hps]
  simp only [Option.map_some, hchars, String.ofList_toList]

end ReferenceDraws.Json.Reading
