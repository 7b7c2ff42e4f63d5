import ReferenceDraws.Yaml.Scalar

/-!
# Tokens of a YAML document

The parts of a text that have a meaning of their own, among them the starts and ends of block
collections, which indentation marks, and the keys of mappings, which only the colon after them
shows.

* `Token.anchorName?`, `Token.tag?`, `Token.directive?`: reads the parts that stand on one line.
-/

namespace ReferenceDraws.Yaml

/-- A part of a document. -/
inductive Token where
  /-- The version of the language. -/
  | version (major minor : Nat)
  /-- A handle of tags, and what it stands for. -/
  | tagDirective (handle expansion : String)
  | documentStart
  | documentEnd
  | streamEnd
  | blockSequenceStart
  | blockMappingStart
  | blockEnd
  | flowSequenceStart
  | flowSequenceEnd
  | flowMappingStart
  | flowMappingEnd
  /-- A dash. -/
  | blockEntry
  /-- A comma. -/
  | flowEntry
  /-- What follows is a key. -/
  | key
  /-- What follows is the value of a key. -/
  | value
  /-- Stands for the node of an anchor. -/
  | reference (anchor : String)
  | anchor (name : String)
  | tag (handle suffix : String)
  | scalar (value : String) (style : Style)
deriving DecidableEq

/-- A token and where it starts. -/
structure PlacedToken where
  token : Token
  mark : Mark

namespace Token

/-! ## Anchors -/

/-- The name of an anchor or a reference, from the text after its sign. -/
def anchorName? (cs : List Char) : Option (String × List Char) :=
  let name := cs.takeWhile isWord
  let rest := cs.dropWhile isWord
  let ends := atGap rest || "?:,]\x7d%@\x60".toList.contains (rest.headD ' ')
  if name = [] ∨ ¬ ends then none else some (String.ofList name, rest)

/-! ## Tags -/

/-- The handle at the start of a tag: an exclamation mark, or a word between two. In a directive
it may not be left open. -/
def tagHandle? (directive : Bool) : List Char → Option (List Char × List Char)
  | '!' :: cs =>
    let word := cs.takeWhile isWord
    match cs.dropWhile isWord with
    | '!' :: rest => some ('!' :: word ++ ['!'], rest)
    | rest => if directive ∧ word ≠ [] then none else some ('!' :: word, rest)
  | _ => none

/-- The characters of a tag; some stand only in one between angle brackets. -/
def isTagChar (verbatim : Bool) (c : Char) : Bool :=
  isWord c || ";/?:@&=+$.!~*'()".toList.contains c || (verbatim && ",[]".toList.contains c)

/-- How many octets follow the first octet of a character. -/
def octetsAfter? (octet : Nat) : Option Nat :=
  if octet < 0x80 then some 0
  else if 0xc0 ≤ octet ∧ octet < 0xe0 then some 1
  else if 0xe0 ≤ octet ∧ octet < 0xf0 then some 2
  else if 0xf0 ≤ octet ∧ octet < 0xf8 then some 3
  else none

/-- The text of a tag, in which two hexadecimal digits after a percent sign are an octet; `due` is
how many octets of a character are still to come. -/
def tagText? (verbatim : Bool) : Nat → List Char → Option (List Char × List Char)
  | due, '%' :: a :: b :: rest => do
    let octet := (← Scalar.hexDigit? a) * 16 + (← Scalar.hexDigit? b)
    let due ←
      if due = 0 then octetsAfter? octet
      else if 0x80 ≤ octet ∧ octet < 0xc0 then some (due - 1)
      else none
    let (text, rest) ← tagText? verbatim due rest
    pure (Char.ofNat octet :: text, rest)
  | due, c :: rest =>
    if c = '%' ∨ due ≠ 0 then none
    else if isTagChar verbatim c then
      (tagText? verbatim 0 rest).map fun (text, rest) => (c :: text, rest)
    else some ([], c :: rest)
  | due, [] => if due = 0 then some ([], []) else none

/-- A text up to its first NUL, which an escape may have put there. -/
def untilNul (cs : List Char) : List Char := cs.takeWhile (· ≠ '\x00')

/-- The tag at the start of a text: in angle brackets, or after a handle. It ends at a NUL. A single
exclamation mark is a tag of its own. -/
def tagParts? : List Char → Option (Token × List Char)
  | '!' :: '<' :: cs => do
    let (text, rest) ← tagText? true 0 cs
    match text, rest with
    | _ :: _, '>' :: rest => pure (.tag "" (String.ofList (untilNul text)), rest)
    | _, _ => none
  | cs => do
    let (handle, rest) ← tagHandle? false cs
    let (text, rest) ← tagText? false 0 rest
    if 2 ≤ handle.length ∧ handle.getLast? = some '!' then
      if text = [] then none
      else pure (.tag (String.ofList handle) (String.ofList (untilNul text)), rest)
    else
      let suffix := untilNul (handle.drop 1 ++ text)
      if suffix = [] then pure (.tag "" "!", rest) else pure (.tag "!" (String.ofList suffix), rest)

/-- Reads a tag, after which a gap follows, or a comma in brackets. -/
def tag? (flow : Bool) (cs : List Char) : Option (Token × List Char) := do
  let (token, rest) ← tagParts? cs
  if atGap rest ∨ flow ∧ rest.head? = some ',' then pure (token, rest) else none

/-! ## Directives -/

/-- A number of at most nine digits. -/
def versionNumber? (cs : List Char) : Option (Nat × List Char) :=
  let digits := cs.takeWhile Char.isDigit
  if digits = [] ∨ 9 < digits.length then none
  else
    some (digits.foldl (fun n d => n * 10 + (d.toNat - '0'.toNat)) 0, cs.dropWhile Char.isDigit)

/-- The version in a directive. -/
def versionDirective? (cs : List Char) : Option (Token × List Char) := do
  match ← versionNumber? (cs.dropWhile isBlank) with
  | (major, '.' :: rest) =>
    let (minor, rest) ← versionNumber? rest
    pure (.version major minor, rest)
  | _ => none

/-- The handle in a directive, and what it stands for. -/
def tagDirective? (cs : List Char) : Option (Token × List Char) := do
  let (handle, rest) ← tagHandle? true (cs.dropWhile isBlank)
  if rest.head?.any isBlank then
    let (text, rest) ← tagText? true 0 (rest.dropWhile isBlank)
    if text = [] ∨ ¬ atGap rest then none
    else pure (.tagDirective (String.ofList handle) (String.ofList (untilNul text)), rest)
  else none

/-- Reads a directive after its percent sign, up to the end of the line. -/
def directive? (c : Cursor) : Option (Token × Cursor) := do
  let name := c.rest.takeWhile isWord
  let rest := c.rest.dropWhile isWord
  if ¬ atGap rest then none
  else
    let (token, rest) ←
      if name = ['Y', 'A', 'M', 'L'] then versionDirective? rest
      else if name = ['T', 'A', 'G'] then tagDirective? rest
      else none
    let c ← (c.upTo rest).endLine?
    pure (token, c)

end Token

end ReferenceDraws.Yaml
