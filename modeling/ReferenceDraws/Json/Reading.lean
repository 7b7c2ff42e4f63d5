import ReferenceDraws.Json.Basic
import ReferenceDraws.Text.Utf8

/-!
# Reading JSON text

A text is read front to back into a value, as far as it goes: where it breaks off or goes wrong
the value has a `broken` part, and the containers around that part are left open. What was
read before the break stays usable, so that a reader who expects something else than stands there
can say so, whatever comes later in the text.

Two faults do not break a text: a string that is delimited but is not Unicode text, and a number
beyond the doubles. Whoever skips such a value never notices.

* `Reading.parse`: the value at the start of a text, and the text after it.
-/

namespace ReferenceDraws.Json

/-- A value as far as it could be read. -/
inductive Reading where
  /-- No value can be read here. -/
  | broken
  | null
  | bool (value : Bool)
  /-- A number; none stands for one beyond the doubles. -/
  | number (value : Option Number)
  /-- A string; none stands for one that is not Unicode text. -/
  | string (value : Option String)
  /-- Items, and whether the closing bracket was reached. -/
  | array (items : List Reading) (closed : Bool)
  /-- Members, and whether the closing bracket was reached. -/
  | object (members : List (Option String × Reading)) (closed : Bool)
deriving Inhabited

namespace Reading

open Text (Stream)

/-! ## Blanks and words -/

/-- Whether a character may stand between tokens. -/
def isGap (c : Option Char) : Bool :=
  c = some ' ' || c = some '\n' || c = some '\t' || c = some '\r'

/-- The text from its next token on. -/
def skipBlanks (text : Stream) : Stream := text.dropWhile isGap

/-- The text after a word, if it starts with that word. -/
def afterWord : List Char → Stream → Option Stream
  | [], text => some text
  | c :: cs, some d :: rest => if c = d then afterWord cs rest else none
  | _ :: _, _ => none

/-! ## Numbers -/

/-- Whether a character is a decimal digit. -/
def isDigit : Option Char → Bool
  | some c => c.isDigit
  | none => false

/-- The digits at the start of a text, and the text after them. -/
def takeDigits (text : Stream) : List Char × Stream :=
  ((text.takeWhile isDigit).filterMap id, text.dropWhile isDigit)

/-- The digits of an integer: no zero stands before another digit. -/
def wholeDigits? (text : Stream) : Option (List Char × Stream) :=
  match takeDigits text with
  | ([], _) => none
  | ('0' :: _ :: _, _) => none
  | found => some found

/-- The digits after a point, which if present has at least one. -/
def fraction? : Stream → Option (Option (List Char) × Stream)
  | some '.' :: rest =>
    match takeDigits rest with
    | ([], _) => none
    | (digits, rest) => some (some digits, rest)
  | text => some (none, text)

/-- The sign of an exponent: whether it is a minus. -/
def exponentSign : Stream → Bool × Stream
  | some '-' :: rest => (true, rest)
  | some '+' :: rest => (false, rest)
  | text => (false, text)

/-- The exponent, which if present has at least one digit. -/
def exponent? : Stream → Option (Option Int × Stream)
  | some c :: rest =>
    if c = 'e' ∨ c = 'E' then
      let (negative, rest) := exponentSign rest
      match takeDigits rest with
      | ([], _) => none
      | (digits, rest) =>
        let n : Int := digitsToNat digits
        some (some (if negative then -n else n), rest)
    else some (none, some c :: rest)
  | text => some (none, text)

/-- The double of a numeral, unless it exceeds the doubles. -/
def finiteDouble? (d : Decimal) : Option Number :=
  let value := d.toDouble
  if value.isFinite then some (.double value) else none

/-- Classifies a numeral. An integer that fits sixty-four bits is one, except for minus zero,
which only a double can hold. -/
def classify (negative : Bool) (whole : List Char) (fraction : Option (List Char))
    (exponent : Option Int) : Option Number :=
  match fraction, exponent with
  | none, none =>
    let n := digitsToNat whole
    if !negative && n < UInt64.size then some (.nat (UInt64.ofNat n))
    else if negative && 0 < n && n ≤ Nat.pow 2 63 then some (.negative (UInt64.ofNat n))
    else finiteDouble? (.ofParts negative whole [] 0)
  | _, _ => finiteDouble? (.ofParts negative whole (fraction.getD []) (exponent.getD 0))

/-- The number at the start of a text, after its sign. -/
def unsignedNumber (negative : Bool) (text : Stream) : Reading × Stream :=
  let parts := do
    let (whole, rest) ← wholeDigits? text
    let (fraction, rest) ← fraction? rest
    let (exponent, rest) ← exponent? rest
    pure (classify negative whole fraction exponent, rest)
  match parts with
  | some (value, rest) => (.number value, rest)
  | none => (.broken, [])

/-! ## Strings -/

/-- A UTF-16 code unit from four hexadecimal digits. -/
def hexUnit? (a b c d : Char) : Option Nat := do
  let digit (c : Char) : Option Nat :=
    if c.isDigit then some (c.toNat - '0'.toNat)
    else if 'a' ≤ c ∧ c ≤ 'f' then some (c.toNat - 'a'.toNat + 10)
    else if 'A' ≤ c ∧ c ≤ 'F' then some (c.toNat - 'A'.toNat + 10)
    else none
  pure (((← digit a) * 16 + (← digit b)) * 256 + (← digit c) * 16 + (← digit d))

/-- The character of a one-letter escape. -/
def shortEscape? : Char → Option Char
  | '"' => some '"'
  | '\\' => some '\\'
  | '/' => some '/'
  | 'b' => some '\x08'
  | 'f' => some '\x0c'
  | 'n' => some '\n'
  | 'r' => some '\r'
  | 't' => some '\t'
  | _ => none

/-- What a string is made of: characters, code units from escapes, and stray bytes. -/
inductive Piece where
  | char (c : Char)
  | unit (n : Nat)
  | stray
deriving DecidableEq

/-- The pieces of a string up to its closing quote, and the text after it. -/
def pieces? : Stream → Option (List Piece × Stream)
  | some '"' :: rest => some ([], rest)
  | some '\\' :: some 'u' :: some a :: some b :: some c :: some d :: rest => do
    let unit ← hexUnit? a b c d
    let (more, rest) ← pieces? rest
    pure (.unit unit :: more, rest)
  | some '\\' :: some c :: rest => do
    let escaped ← shortEscape? c
    let (more, rest) ← pieces? rest
    pure (.char escaped :: more, rest)
  | some c :: rest =>
    if c = '\\' ∨ c.toNat < 0x20 then none
    else (pieces? rest).map fun (more, rest) => (.char c :: more, rest)
  | none :: rest => (pieces? rest).map fun (more, rest) => (.stray :: more, rest)
  | [] => none

/-- Whether a code unit is the first of a surrogate pair. -/
def isHighSurrogate (n : Nat) : Bool := 0xd800 ≤ n && n < 0xdc00

/-- Whether a code unit is the second of a surrogate pair. -/
def isLowSurrogate (n : Nat) : Bool := 0xdc00 ≤ n && n < 0xe000

/-- The characters of a string; surrogates must stand in pairs. -/
def pieceChars? : List Piece → Option (List Char)
  | [] => some []
  | .char c :: rest => (pieceChars? rest).map (c :: ·)
  | .stray :: _ => none
  | .unit n :: .unit m :: rest =>
    if isHighSurrogate n then
      if isLowSurrogate m then
        (pieceChars? rest).map
          (Char.ofNat (0x10000 + (n - 0xd800) * 0x400 + (m - 0xdc00)) :: ·)
      else none
    else if isLowSurrogate n then none
    else (pieceChars? (.unit m :: rest)).map (Char.ofNat n :: ·)
  | .unit n :: rest =>
    if isHighSurrogate n || isLowSurrogate n then none
    else (pieceChars? rest).map (Char.ofNat n :: ·)

/-- The string after an opening quote: its value, and the text after its closing quote. -/
def string? (text : Stream) : Option (Option String × Stream) :=
  (pieces? text).map fun (pieces, rest) => ((pieceChars? pieces).map String.ofList, rest)

/-! ## Values -/

mutual

/-- The value at the start of a text, and the text after it. The fuel bounds the number of
values and separators that are read. -/
def parseValue : Nat → Stream → Reading × Stream
  | 0, _ => (.broken, [])
  | fuel + 1, text =>
    match skipBlanks text with
    | some 'n' :: rest => word ['u', 'l', 'l'] .null rest
    | some 't' :: rest => word ['r', 'u', 'e'] (.bool true) rest
    | some 'f' :: rest => word ['a', 'l', 's', 'e'] (.bool false) rest
    | some '"' :: rest =>
      match string? rest with
      | some (value, rest) => (.string value, rest)
      | none => (.broken, [])
    | some '[' :: rest =>
      match skipBlanks rest with
      | some ']' :: rest => (.array [] true, rest)
      | rest =>
        let (items, closed, rest) := parseItems fuel rest
        (.array items closed, rest)
    | some '{' :: rest =>
      match skipBlanks rest with
      | some '}' :: rest => (.object [] true, rest)
      | rest =>
        let (members, closed, rest) := parseMembers fuel rest
        (.object members closed, rest)
    | some '-' :: rest => unsignedNumber true rest
    | some c :: rest =>
      if c.isDigit then unsignedNumber false (some c :: rest) else (.broken, [])
    | _ => (.broken, [])
where
  /-- The value that a word stands for, if the text goes on with the rest of the word. -/
  word (letters : List Char) (value : Reading) (text : Stream) : Reading × Stream :=
    match afterWord letters text with
    | some rest => (value, rest)
    | none => (.broken, [])

/-- The items of an array from the first on, whether its bracket closes, and the text after. -/
def parseItems : Nat → Stream → List Reading × Bool × Stream
  | 0, _ => ([], false, [])
  | fuel + 1, text =>
    let (item, rest) := parseValue fuel text
    match skipBlanks rest with
    | some ',' :: rest =>
      let (items, closed, rest) := parseItems fuel rest
      (item :: items, closed, rest)
    | some ']' :: rest => ([item], true, rest)
    | _ => ([item], false, [])

/-- The members of an object from the first on, whether its bracket closes, and the text after. -/
def parseMembers : Nat → Stream → List (Option String × Reading) × Bool × Stream
  | 0, _ => ([], false, [])
  | fuel + 1, text =>
    match skipBlanks text with
    | some '"' :: rest =>
      match string? rest with
      | some (key, rest) =>
        match skipBlanks rest with
        | some ':' :: rest =>
          let (value, rest) := parseValue fuel rest
          match skipBlanks rest with
          | some ',' :: rest =>
            let (members, closed, rest) := parseMembers fuel rest
            ((key, value) :: members, closed, rest)
          | some '}' :: rest => ([(key, value)], true, rest)
          | _ => ([(key, value)], false, [])
        | _ => ([(key, .broken)], false, [])
      | none => ([], false, [])
    | _ => ([], false, [])

end

/-- The value at the start of a text, and the text after it. -/
def parse (text : Stream) : Reading × Stream := parseValue (2 * text.length + 1) text

/-! ## Complete values -/

mutual

/-- A complete value as it would be read from its own text. -/
def ofJson : Json → Reading
  | .null => .null
  | .bool b => .bool b
  | .number n => .number (some n)
  | .string s => .string (some s)
  | .array items => .array (ofItems items) true
  | .object members => .object (ofMembers members) true

/-- Complete items. -/
def ofItems : List Json → List Reading
  | [] => []
  | item :: rest => ofJson item :: ofItems rest

/-- Complete members. -/
def ofMembers : List (String × Json) → List (Option String × Reading)
  | [] => []
  | (key, value) :: rest => (some key, ofJson value) :: ofMembers rest

end

end Reading

end ReferenceDraws.Json
