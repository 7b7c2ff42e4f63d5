import ReferenceDraws.Yaml.Token

/-!
# Reading tokens

Tokens are read one after another as they are asked for. That a node is a key shows only at the
colon after it, which has to stand on its line and within 1024 octets. So the lexer keeps
where a key may have begun, and holds tokens back until that is settled.

* `Lexer.peek`: the next token;
* `Lexer.advance`: goes on after it.
-/

namespace ReferenceDraws.Yaml

/-- Where a key may have begun. -/
structure KeyCandidate where
  /-- The node has to be a key: nothing else may stand at the indentation of a block mapping. -/
  required : Bool
  /-- The number of its first token. -/
  number : Nat
  /-- Its position. -/
  mark : Mark

/-- The state of reading tokens. -/
structure Lexer where
  /-- What is not read yet. -/
  cursor : Cursor
  /-- Whether the text is all there; else nothing can be read at its end. -/
  whole : Bool := true
  /-- The tokens that were read and not taken. -/
  queue : List PlacedToken := []
  /-- How many tokens were taken. -/
  taken : Nat := 0
  /-- One more than the column of the innermost block collection, or zero outside of all. -/
  level : Nat := 0
  /-- The levels around it. -/
  outer : List Nat := []
  /-- Whether a key may begin here. -/
  keyAllowed : Bool := true
  /-- Where a key may have begun, in the innermost brackets. -/
  candidate : Option KeyCandidate := none
  /-- The same for each pair of brackets around them, innermost first. -/
  enclosing : List (Option KeyCandidate) := []

namespace Lexer

/-- At the start of a text, which may not be all there. -/
def start (text : List Char) (whole : Bool) : Lexer := { cursor := .start text, whole }

/-- Whether the position is inside brackets. -/
def inFlow (s : Lexer) : Bool := !s.enclosing.isEmpty

/-- The column of the position. -/
def column (s : Lexer) : Nat := s.cursor.mark.column

/-- Adds a token that starts at the position. -/
def push (s : Lexer) (t : Token) : Lexer := { s with queue := s.queue ++ [⟨t, s.cursor.mark⟩] }

/-- Adds a token where a key began, before the tokens of the key. -/
def insertBefore (s : Lexer) (k : KeyCandidate) (t : Token) : Lexer :=
  let i := k.number - s.taken
  { s with queue := s.queue.take i ++ ⟨t, k.mark⟩ :: s.queue.drop i }

/-- Adds a token of so many characters. -/
def pushSign (s : Lexer) (width : Nat) (t : Token) : Lexer :=
  { s.push t with cursor := s.cursor.skip width }

/-! ## Keys -/

/-- Whether a key that began at a candidate can no longer go on. -/
def isStale (m : Mark) (k : KeyCandidate) : Bool :=
  k.mark.line < m.line || k.mark.index + 1024 < m.index

/-- A candidate while it is not stale. One that is required may not become stale. -/
def keepFresh (m : Mark) (k : Option KeyCandidate) : Option (Option KeyCandidate) :=
  match k with
  | some k => if isStale m k then (if k.required then none else some none) else some (some k)
  | none => some none

/-- Drops all stale candidates. -/
def dropStale (s : Lexer) : Option Lexer := do
  let enclosing ← s.enclosing.mapM (keepFresh s.cursor.mark)
  let candidate ← keepFresh s.cursor.mark s.candidate
  pure { s with enclosing, candidate }

/-- Drops the innermost candidate, which may not be required. -/
def dropCandidate (s : Lexer) : Option Lexer :=
  if s.candidate.any (·.required) then none else some { s with candidate := none }

/-- Keeps the position as a place where a key may begin, where that is allowed. -/
def markCandidate (s : Lexer) : Option Lexer :=
  if s.keyAllowed then do
    let required := !s.inFlow && s.level = s.column + 1
    let s ← s.dropCandidate
    pure { s with candidate := some ⟨required, s.taken + s.queue.length, s.cursor.mark⟩ }
  else some s

/-! ## Indentation -/

/-- How many of the innermost levels exceed a bound, with the level below them and those around
it. -/
def levelsAbove (bound : Nat) : Nat → List Nat → Nat × Nat × List Nat
  | level, [] => (0, level, [])
  | level, l :: ls =>
    if bound < level then
      let (count, rest) := levelsAbove bound l ls
      (count + 1, rest)
    else (0, level, l :: ls)

/-- Ends the block collections whose level exceeds a bound; brackets suspend indentation. -/
def closeAbove (s : Lexer) (bound : Nat) : Lexer :=
  if s.inFlow then s
  else
    let (count, level, outer) := levelsAbove bound s.level s.outer
    { s with level, outer, queue := s.queue ++ List.replicate count ⟨.blockEnd, s.cursor.mark⟩ }

/-- Starts a block collection at a column that is further than the innermost one. -/
def openAt (s : Lexer) (column : Nat) (add : Lexer → Lexer) : Lexer :=
  if s.inFlow ∨ column < s.level then s
  else add { s with level := column + 1, outer := s.level :: s.outer }

/-! ## Gaps -/

/-- After blanks, comments and empty lines, and whether a key may begin there. Where one may begin
outside of brackets, tabs are no blanks, and a new line there allows one. A line may start with a
byte order mark, which takes a column. -/
def gapFrom (flow comment keyAllowed : Bool) (m : Mark) (cs : List Char) : Bool × Cursor :=
  match cs with
  | [] => (keyAllowed, ⟨m, []⟩)
  | c :: rest =>
    match Scalar.breakWidth (c :: rest) with
    | some width =>
      gapFrom flow false (keyAllowed || !flow) (m.nextLine ((c :: rest).take width))
        (rest.drop (width - 1))
    | none =>
      if comment ∨ c = ' ' ∨ c = '\t' ∧ (flow ∨ ¬ keyAllowed) ∨ m.column = 0 ∧ c = '\ufeff' then
        gapFrom flow comment keyAllowed (m.past c) rest
      else if c = '#' then gapFrom flow true keyAllowed (m.past c) rest
      else (keyAllowed, ⟨m, c :: rest⟩)
termination_by cs.length
decreasing_by all_goals (simp only [List.length_drop, List.length_cons]; omega)

/-- Goes on to the next character of a token. -/
def skipGap (s : Lexer) : Lexer :=
  let (keyAllowed, cursor) := gapFrom s.inFlow false s.keyAllowed s.cursor.mark s.cursor.rest
  { s with keyAllowed, cursor }

/-! ## Tokens -/

/-- The end of the text, which stands on a line of its own. -/
def readEnd (s : Lexer) : Option Lexer := do
  let c := s.cursor
  let s := { s with cursor := if c.mark.column = 0 then c else ⟨c.mark.nextLine [], c.rest⟩ }
  let s ← (s.closeAbove 0).dropCandidate
  pure ({ s with keyAllowed := false }.push .streamEnd)

/-- A directive. -/
def readDirective (s : Lexer) : Option Lexer := do
  let s ← (s.closeAbove 0).dropCandidate
  let (t, cursor) ← Token.directive? (s.cursor.skip 1)
  pure { s.push t with cursor, keyAllowed := false }

/-- The start or end of a document. -/
def readMarker (s : Lexer) (t : Token) : Option Lexer := do
  let s ← (s.closeAbove 0).dropCandidate
  pure { s.pushSign 3 t with keyAllowed := false }

/-- An opening bracket. -/
def readOpening (s : Lexer) (t : Token) : Option Lexer := do
  let s ← s.markCandidate
  pure { s.pushSign 1 t with
    enclosing := s.candidate :: s.enclosing, candidate := none, keyAllowed := true }

/-- A closing bracket. -/
def readClosing (s : Lexer) (t : Token) : Option Lexer := do
  let s ← s.dropCandidate
  pure { s.pushSign 1 t with
    candidate := s.enclosing.headD none, enclosing := s.enclosing.tail, keyAllowed := false }

/-- A comma. -/
def readComma (s : Lexer) : Option Lexer := do
  let s ← s.dropCandidate
  pure { s.pushSign 1 .flowEntry with keyAllowed := true }

/-- A dash before an item of a block sequence. -/
def readDash (s : Lexer) : Option Lexer := do
  if ¬ s.inFlow ∧ ¬ s.keyAllowed then none
  else
    let s ← (s.openAt s.column (·.push .blockSequenceStart)).dropCandidate
    pure { s.pushSign 1 .blockEntry with keyAllowed := true }

/-- A question mark before a key. -/
def readQuestion (s : Lexer) : Option Lexer := do
  if ¬ s.inFlow ∧ ¬ s.keyAllowed then none
  else
    let s ← (s.openAt s.column (·.push .blockMappingStart)).dropCandidate
    pure { s.pushSign 1 .key with keyAllowed := !s.inFlow }

/-- A colon before a value. Where a key may have begun, one did. -/
def readColon (s : Lexer) : Option Lexer :=
  match s.candidate with
  | some k =>
    let s := s.insertBefore k .key
    let s := s.openAt k.mark.column (·.insertBefore k .blockMappingStart)
    some { s.pushSign 1 .value with candidate := none, keyAllowed := false }
  | none =>
    if ¬ s.inFlow ∧ ¬ s.keyAllowed then none
    else
      let s := s.openAt s.column (·.push .blockMappingStart)
      some { s.pushSign 1 .value with keyAllowed := !s.inFlow }

/-- An anchor or a reference. -/
def readAnchor (s : Lexer) (token : String → Token) : Option Lexer := do
  let s ← s.markCandidate
  let c := s.cursor.skip 1
  let (name, rest) ← Token.anchorName? c.rest
  pure { s.push (token name) with cursor := c.upTo rest, keyAllowed := false }

/-- A tag. -/
def readTag (s : Lexer) : Option Lexer := do
  let s ← s.markCandidate
  let (t, rest) ← Token.tag? s.inFlow s.cursor.rest
  pure { s.push t with cursor := s.cursor.upTo rest, keyAllowed := false }

/-- A block of lines. -/
def readBlock (s : Lexer) (style : Style) : Option Lexer := do
  let s ← s.dropCandidate
  let (value, cursor) ← Scalar.block (style = .folded) s.level s.cursor
  pure { s.push (.scalar (String.ofList value) style) with cursor, keyAllowed := true }

/-- A scalar in quotes. -/
def readQuoted (s : Lexer) (double : Bool) : Option Lexer := do
  let s ← s.markCandidate
  let (value, cursor) ← Scalar.quoted double s.cursor
  pure { s.push (.scalar (String.ofList value) .quoted) with cursor, keyAllowed := false }

/-- A plain scalar. If it goes on to a new line, a key may begin there. -/
def readPlain (s : Lexer) : Option Lexer := do
  let s ← s.markCandidate
  let (value, keyAllowed, cursor) ← Scalar.plain s.inFlow s.level s.cursor
  pure { s.push (.scalar (String.ofList value) .plain) with cursor, keyAllowed }

/-- Whether a plain scalar may start with a character, before a rest. -/
def startsPlain (flow : Bool) (c : Char) (rest : List Char) : Bool :=
  !("-?:,[]\x7b\x7d#&*!|>'\"%@\x60".toList.contains c || isBlank c || isBreak c) ||
    (c = '-' && !rest.head?.any isBlank) || (!flow && (c = '?' || c = ':') && !atGap rest)

/-- Reads the token at the position. -/
def readToken (s : Lexer) : Option Lexer :=
  match s.cursor.rest with
  | [] => s.readEnd
  | c :: rest =>
    let flow := s.inFlow
    if s.column = 0 ∧ c = '%' then s.readDirective
    else if s.column = 0 ∧ marker? (c :: rest) = some '-' then
      s.readMarker .documentStart
    else if s.column = 0 ∧ marker? (c :: rest) = some '.' then
      s.readMarker .documentEnd
    else if c = '[' then s.readOpening .flowSequenceStart
    else if c = '{' then s.readOpening .flowMappingStart
    else if c = ']' then s.readClosing .flowSequenceEnd
    else if c = '}' then s.readClosing .flowMappingEnd
    else if c = ',' then s.readComma
    else if c = '-' ∧ atGap rest then s.readDash
    else if c = '?' ∧ (flow ∨ atGap rest) then s.readQuestion
    else if c = ':' ∧ (flow ∨ atGap rest) then s.readColon
    else if c = '*' then s.readAnchor .reference
    else if c = '&' then s.readAnchor .anchor
    else if c = '!' then s.readTag
    else if c = '|' ∧ ¬ flow then s.readBlock .literal
    else if c = '>' ∧ ¬ flow then s.readBlock .folded
    else if c = '\'' then s.readQuoted false
    else if c = '"' then s.readQuoted true
    else if startsPlain flow c rest then s.readPlain
    else none

/-- The state itself, if so many characters can be seen or the text ends before them. -/
def seeing (s : Lexer) (count : Nat) : Option Lexer :=
  if s.whole ∨ count ≤ s.cursor.rest.length then some s else none

/-- Reads one more token. Its first four characters tell its kind, and the one after it that it
ends. -/
def read (s : Lexer) : Option Lexer := do
  let s ← s.skipGap.dropStale
  let s ← (s.closeAbove (s.column + 1)).seeing 4
  (← s.readToken).seeing 1

/-! ## The next token -/

/-- Whether a key may still begin at the next token. -/
def isHeld (s : Lexer) : Bool :=
  (s.candidate :: s.enclosing).any fun k => k.any (·.number = s.taken)

/-- Reads tokens until the first in the queue is settled, at most so many. -/
def settle : Nat → Lexer → Option Lexer
  | 0, s => if s.queue.isEmpty then none else some s
  | tokens + 1, s =>
    if s.queue.isEmpty then s.read.bind (settle tokens)
    else do
      let s ← s.dropStale
      if s.isHeld then s.read.bind (settle tokens) else pure s

/-- The next token, and the state in which it is first in the queue. -/
def peek (s : Lexer) : Option (PlacedToken × Lexer) := do
  let s ← settle (s.cursor.rest.length + 2) s
  let t ← s.queue.head?
  pure (t, s)

/-- Where the first token in the queue starts. -/
def mark (s : Lexer) : Mark := s.queue.head?.elim s.cursor.mark (·.mark)

/-- The state after the first token in the queue. -/
def advance (s : Lexer) : Lexer := { s with queue := s.queue.tail, taken := s.taken + 1 }

end Lexer

end ReferenceDraws.Yaml
