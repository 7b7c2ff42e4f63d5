import ReferenceDraws.Text.Utf8

/-!
# Reading encoded text

The bytes of a text are read as that text, without gaps.

* The shape of the bytes.  A continuation byte gives its payload back, and
  a first byte tells how many bytes follow it.  Both are checked on every
  payload.
* One character.  `decodeFrom_encodeChar` reads the bytes of a character,
  whatever comes after them.
* A text.  `decode_encode` and `decode?_encode`.
-/

namespace ReferenceDraws.Text

/-! ## The shape of the bytes -/

theorem continuation?_ofNat : ∀ n < 64, continuation? (UInt8.ofNat (n + 0x80)) = some n := by
  decide

theorem one_byte : ∀ n < 128, UInt8.ofNat n < 0x80 ∧ (UInt8.ofNat n).toNat = n := by
  decide

theorem first_of_two : ∀ n < 32, ¬ UInt8.ofNat (n + 0xc0) < 0x80 ∧
    UInt8.ofNat (n + 0xc0) &&& 0xe0 = 0xc0 ∧ (UInt8.ofNat (n + 0xc0) &&& 0x1f).toNat = n := by
  decide

theorem first_of_three : ∀ n < 16, ¬ UInt8.ofNat (n + 0xe0) < 0x80 ∧
    ¬ UInt8.ofNat (n + 0xe0) &&& 0xe0 = 0xc0 ∧ UInt8.ofNat (n + 0xe0) &&& 0xf0 = 0xe0 ∧
      (UInt8.ofNat (n + 0xe0) &&& 0x0f).toNat = n := by
  decide

theorem first_of_four : ∀ n < 8, ¬ UInt8.ofNat (n + 0xf0) < 0x80 ∧
    ¬ UInt8.ofNat (n + 0xf0) &&& 0xe0 = 0xc0 ∧ ¬ UInt8.ofNat (n + 0xf0) &&& 0xf0 = 0xe0 ∧
      UInt8.ofNat (n + 0xf0) &&& 0xf8 = 0xf0 ∧ (UInt8.ofNat (n + 0xf0) &&& 0x07).toNat = n := by
  decide

/-! ## One character -/

/-- A code point gives its character back, if the form is not too long for
it. -/
theorem scalar?_toNat {least : Nat} {c : Char} (h : least ≤ c.toNat) :
    scalar? least c.toNat = some c := by
  have hvalid : c.toNat.isValidChar := c.valid
  have hchar : Char.ofNat c.toNat = c := Char.ofNat_toNat c
  rw [Char.ofNat, dif_pos hvalid] at hchar
  rw [scalar?, dif_pos ⟨h, hvalid⟩, hchar]

/-- The first byte of a character and the bytes after it give the
character, and the number of those bytes. -/
theorem character?_encodeChar (c : Char) (rest : List UInt8) :
    ∃ a more, String.utf8EncodeChar c = a :: more ∧
      character? a (more ++ rest) = some (c, more.length) := by
  have hval : c.val.toNat = c.toNat := rfl
  unfold String.utf8EncodeChar
  simp only [hval]
  split
  · rename_i h1
    obtain ⟨hlt, hnat⟩ := one_byte c.toNat (by omega)
    refine ⟨_, _, rfl, ?_⟩
    unfold character?
    rw [if_pos hlt, hnat, scalar?_toNat (by omega)]
    rfl
  split
  · rename_i h1 h2
    obtain ⟨hlt, hmark, hnat⟩ := first_of_two (c.toNat / 64 % 32) (by omega)
    refine ⟨_, _, rfl, ?_⟩
    unfold character?
    rw [if_neg hlt, if_pos hmark]
    simp only [List.cons_append, List.nil_append, hnat]
    rw [continuation?_ofNat _ (by omega)]
    have hcode : c.toNat / 64 % 32 * 64 + c.toNat % 64 = c.toNat := by omega
    have hchar : scalar? 0x80 c.toNat = some c := scalar?_toNat (by omega)
    simp [hcode, hchar]
  split
  · rename_i h1 h2 h3
    obtain ⟨hlt, hmark2, hmark, hnat⟩ := first_of_three (c.toNat / 4096 % 16) (by omega)
    refine ⟨_, _, rfl, ?_⟩
    unfold character?
    rw [if_neg hlt, if_neg hmark2, if_pos hmark]
    simp only [List.cons_append, List.nil_append, hnat]
    rw [continuation?_ofNat _ (by omega), continuation?_ofNat _ (by omega)]
    have hcode : (c.toNat / 4096 % 16 * 64 + c.toNat / 64 % 64) * 64 + c.toNat % 64
        = c.toNat := by omega
    have hchar : scalar? 0x800 c.toNat = some c := scalar?_toNat (by omega)
    simp [hcode, hchar]
  · rename_i h1 h2 h3
    have hmax : c.toNat < 0x110000 := by
      rcases c.valid with h | h
      · exact Nat.lt_trans h (by decide)
      · exact h.2
    obtain ⟨hlt, hmark2, hmark3, hmark, hnat⟩ :=
      first_of_four (c.toNat / 262144 % 8) (by omega)
    refine ⟨_, _, rfl, ?_⟩
    unfold character?
    rw [if_neg hlt, if_neg hmark2, if_neg hmark3, if_pos hmark]
    simp only [List.cons_append, List.nil_append, hnat]
    rw [continuation?_ofNat _ (by omega), continuation?_ofNat _ (by omega),
      continuation?_ofNat _ (by omega)]
    have hcode : ((c.toNat / 262144 % 8 * 64 + c.toNat / 4096 % 64) * 64
        + c.toNat / 64 % 64) * 64 + c.toNat % 64 = c.toNat := by omega
    have hchar : scalar? 0x10000 c.toNat = some c := scalar?_toNat (by omega)
    simp [hcode, hchar]

/-- Bytes that belong to a character already read are passed over. -/
theorem decodeFrom_length_append (skipped rest : List UInt8) :
    decodeFrom skipped.length (skipped ++ rest) = decodeFrom 0 rest := by
  induction skipped with
  | nil => rfl
  | cons b skipped ih => rw [List.length_cons, List.cons_append, decodeFrom, ih]

/-- The bytes of a character are read as that character. -/
theorem decodeFrom_encodeChar (c : Char) (rest : List UInt8) :
    decodeFrom 0 (String.utf8EncodeChar c ++ rest) = some c :: decodeFrom 0 rest := by
  obtain ⟨a, more, hbytes, hchar⟩ := character?_encodeChar c rest
  rw [hbytes, List.cons_append, decodeFrom, hchar]
  dsimp only
  rw [decodeFrom_length_append]

/-! ## A text -/

theorem decode_encodeChars (cs : List Char) : decode (encodeChars cs) = cs.map some := by
  induction cs with
  | nil => rfl
  | cons c cs ih =>
    rw [encodeChars, List.flatMap_cons, decode, decodeFrom_encodeChar, List.map_cons]
    exact congrArg (some c :: ·) ih

/-- The bytes of a string are read as its text, without gaps. -/
theorem decode_encode (s : String) : decode (encode s) = stream s := decode_encodeChars s.toList

/-- The bytes of a string are read as that string. -/
theorem decode?_encode (s : String) : decode? (encode s) = some s := by
  rw [decode?, decode_encode, stream, chars?_map_some, Option.map_some, String.ofList_toList]

/-- A string has the bytes that its size counts. -/
theorem length_encode (s : String) : (encode s).length = s.utf8ByteSize := by
  rw [← String.size_toByteArray, ← String.utf8Encode_toList, List.utf8Encode,
    List.size_toByteArray]
  rfl

end ReferenceDraws.Text
