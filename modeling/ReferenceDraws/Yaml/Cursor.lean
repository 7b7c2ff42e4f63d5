/-!
# Positions in a YAML document

A cursor is a position in a text and the text from there on. Columns and lines matter to YAML, so
that a cursor counts them; a carriage return with a line feed is one line break.
-/

namespace ReferenceDraws.Yaml

/-! ## Characters -/

/-- A character that ends a line. -/
def isBreak (c : Char) : Bool :=
  c = '\n' || c = '\r' || c = '\u0085' || c = '\u2028' || c = '\u2029'

/-- A space or a tab. -/
def isBlank (c : Char) : Bool := c = ' ' || c = '\t'

/-- A character of names. -/
def isWord (c : Char) : Bool := c.isAlphanum || c = '_' || c = '-'

/-- Whether a text ends or goes on with a blank or a line break. -/
def atGap : List Char → Bool
  | [] => true
  | c :: _ => isBlank c || isBreak c

/-- What a line break is in a scalar: a line feed, except for the two separators. -/
def breakText (c : Char) : Char := if c = '\u2028' || c = '\u2029' then c else '\n'

/-- The characters that a document may hold. -/
def isPrintable (c : Char) : Bool :=
  c = '\t' || c = '\n' || c = '\r' || c = '\u0085' ||
    (' ' ≤ c && c ≤ '~') || ('\u00a0' ≤ c && c ≤ '\ufffd') || 0x10000 ≤ c.toNat

/-- The octets of a text that are read at once. -/
def pieceSize : Nat := 16384

/-- The characters of a text before the piece in which one stands that no document may hold, and
whether they are all. `done` are those of the pieces before and `seen` those before the rest, last one
first; `used` is the size of the piece so far. -/
def readableFrom (done seen : List Char) (used : Nat) : List Char → List Char × Bool
  | [] => (seen.reverse, true)
  | c :: rest =>
    let isNext := pieceSize < used + c.utf8Size
    let done := if isNext then seen else done
    if isPrintable c then
      readableFrom done (c :: seen) ((if isNext then 0 else used) + c.utf8Size) rest
    else (done.reverse, false)

/-- The part of a text that can be read, and whether it is all of it. -/
def readable (text : String) : List Char × Bool := readableFrom [] [] 0 text.toList

/-! ## Cursors -/

/-- A position: in octets from the start, and in lines and the characters of a line. -/
structure Mark where
  index : Nat := 0
  line : Nat := 0
  column : Nat := 0
deriving DecidableEq

namespace Mark

/-- After a character that ends no line. -/
def past (m : Mark) (c : Char) : Mark := ⟨m.index + c.utf8Size, m.line, m.column + 1⟩

/-- After characters that end no line. -/
def pastAll (m : Mark) (cs : List Char) : Mark := cs.foldl past m

/-- At the start of the next line, after the characters of a line break. -/
def nextLine (m : Mark) (lineBreak : List Char) : Mark :=
  ⟨(m.pastAll lineBreak).index, m.line + 1, 0⟩

/-- Where something is, in a message; of what is at the start nothing is said. -/
def place (m : Mark) : String :=
  if m.line = 0 ∧ m.column = 0 then ""
  else " at line " ++ toString (m.line + 1) ++ " column " ++ toString (m.column + 1)

end Mark

/-- A position and the text from there on. -/
structure Cursor where
  mark : Mark
  rest : List Char

namespace Cursor

/-- The start of a text. -/
def start (text : List Char) : Cursor := ⟨{}, text⟩

/-- So many characters further on the same line. -/
def skip (c : Cursor) (count : Nat) : Cursor :=
  ⟨c.mark.pastAll (c.rest.take count), c.rest.drop count⟩

/-- Where a rest of the line's text begins. -/
def upTo (c : Cursor) (rest : List Char) : Cursor := c.skip (c.rest.length - rest.length)

/-- After the characters that belong to a set. -/
def skipWhile (c : Cursor) (p : Char → Bool) : Cursor := c.upTo (c.rest.dropWhile p)

/-- After a line break, if there is one, with the text of the break. -/
def readBreak (c : Cursor) : Option Char × Cursor :=
  match c.rest with
  | '\r' :: '\n' :: rest => (some '\n', ⟨c.mark.nextLine ['\r', '\n'], rest⟩)
  | x :: rest =>
    if isBreak x then (some (breakText x), ⟨c.mark.nextLine [x], rest⟩) else (none, c)
  | [] => (none, c)

/-- After the blanks and the comment at the end of a line; nothing else may stand there. -/
def endLine? (c : Cursor) : Option Cursor :=
  let c := c.skipWhile isBlank
  let c := if c.rest.head? = some '#' then c.skipWhile (!isBreak ·) else c
  if atGap c.rest then some c.readBreak.2 else none

end Cursor

end ReferenceDraws.Yaml
