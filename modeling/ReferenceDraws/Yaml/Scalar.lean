import ReferenceDraws.Yaml.Cursor

/-!
# Scalars of a YAML document

A scalar is plain, in quotes, or a block of lines. In plain and quoted scalars line breaks are
folded: one becomes a space, and of several the first goes. A block keeps its lines or folds
those that are not indented further.

* `Scalar.plain`, `Scalar.quoted`, `Scalar.block`: reads a scalar at a cursor.
-/

namespace ReferenceDraws.Yaml

/-- How a scalar is written. -/
inductive Style where
  | plain
  | quoted
  /-- A block whose lines are kept. -/
  | literal
  /-- A block whose lines are folded. -/
  | folded
deriving DecidableEq

/-- A scalar of a document. -/
structure Scalar where
  /-- Its text, without quotes and folded. -/
  value : String
  /-- How it is written. -/
  style : Style
  /-- Its tag. -/
  tag : Option String := none
deriving DecidableEq

/-- The character of three dashes or dots that stand alone at the start of a text. At the start
of a line, dashes start a document and dots end one. -/
def marker? : List Char → Option Char
  | '-' :: '-' :: '-' :: rest => if atGap rest then some '-' else none
  | '.' :: '.' :: '.' :: rest => if atGap rest then some '.' else none
  | _ => none

/-- Whether a text starts with such a marker. -/
def startsMarker (cs : List Char) : Bool := (marker? cs).isSome

/-! ## Gaps -/

/-- What stands between two words of a scalar. -/
inductive Gap where
  /-- Blanks, last one first. -/
  | blanks (cs : List Char)
  /-- Line breaks, last one first; blanks around them do not count. Where the first break was
  escaped, it is not among them and the others are not folded. -/
  | breaks (escaped : Bool) (cs : List Char)

namespace Gap

/-- No gap. -/
def none : Gap := .blanks []

/-- A gap after an escaped line break. -/
def escaped : Gap := .breaks true []

/-- Whether there is no gap. -/
def isNone : Gap → Bool
  | .blanks [] => true
  | _ => false

/-- Whether a gap goes over the end of a line. -/
def isBroken : Gap → Bool
  | .blanks _ => false
  | .breaks _ _ => true

/-- One more blank. -/
def blank (c : Char) : Gap → Gap
  | .blanks cs => .blanks (c :: cs)
  | g => g

/-- One more line break. -/
def lineBreak (c : Char) : Gap → Gap
  | .blanks _ => .breaks false [c]
  | .breaks e cs => .breaks e (c :: cs)

/-- Folded line breaks. -/
def fold : List Char → List Char
  | ['\n'] => [' ']
  | '\n' :: more => more
  | cs => cs

/-- What a gap is in the value of a scalar. -/
def text : Gap → List Char
  | .blanks cs => cs.reverse
  | .breaks true cs => cs.reverse
  | .breaks false cs => fold cs.reverse

end Gap

namespace Scalar

/-! ## Quoted scalars -/

/-- The value of a hexadecimal digit. -/
def hexDigit? (c : Char) : Option Nat :=
  if '0' ≤ c ∧ c ≤ '9' then some (c.toNat - '0'.toNat)
  else if 'a' ≤ c ∧ c ≤ 'f' then some (c.toNat - 'a'.toNat + 10)
  else if 'A' ≤ c ∧ c ≤ 'F' then some (c.toNat - 'A'.toNat + 10)
  else none

/-- The character whose number stands in so many hexadecimal digits. -/
def hexChar? (digits : Nat) (cs : List Char) : Option Char := do
  let values ← (cs.take digits).mapM hexDigit?
  let n := values.foldl (fun n d => n * 16 + d) 0
  if values.length = digits ∧ n.isValidChar then some (Char.ofNat n) else none

/-- The escapes of one character. -/
def escapes : List (Char × Char) :=
  [('0', '\x00'), ('a', '\x07'), ('b', '\x08'), ('t', '\t'), ('\t', '\t'), ('n', '\n'),
    ('v', '\x0b'), ('f', '\x0c'), ('r', '\r'), ('e', '\x1b'), (' ', ' '), ('"', '"'), ('/', '/'),
    ('\\', '\\'), ('N', '\u0085'), ('_', '\u00a0'), ('L', '\u2028'), ('P', '\u2029')]

/-- The character that an escape means, and the length of the escape, from the text after the
backslash. -/
def escape? : List Char → Option (Char × Nat)
  | 'x' :: cs => (hexChar? 2 cs).map (·, 3)
  | 'u' :: cs => (hexChar? 4 cs).map (·, 5)
  | 'U' :: cs => (hexChar? 8 cs).map (·, 9)
  | c :: _ => (escapes.lookup c).map (·, 1)
  | [] => none

/-- The line break at the start of a text, as the width it has. -/
def breakWidth : List Char → Option Nat
  | '\r' :: '\n' :: _ => some 2
  | c :: _ => if isBreak c then some 1 else none
  | [] => none

/-- The value of a quoted scalar from a position inside the quotes on, after a gap. -/
def quotedFrom (double : Bool) (m : Mark) (gap : Gap) (cs : List Char) :
    Option (List Char × Cursor) :=
  if m.column = 0 ∧ startsMarker cs then none
  else
    match cs with
    | [] => none
    | c :: rest =>
      match breakWidth (c :: rest) with
      | some width =>
        quotedFrom double (m.nextLine ((c :: rest).take width)) (gap.lineBreak (breakText c))
          (rest.drop (width - 1))
      | none =>
        if isBlank c then quotedFrom double (m.past c) (gap.blank c) rest
        else if c = (if double then '"' else '\'') then
          if ¬ double ∧ rest.head? = some '\'' then
            (quotedFrom double (m.pastAll [c, c]) .none (rest.drop 1)).map fun (value, after) =>
              (gap.text ++ '\'' :: value, after)
          else some (gap.text, ⟨m.past c, rest⟩)
        else if double ∧ c = '\\' then
          match breakWidth rest with
          | some width =>
            (quotedFrom double ((m.past c).nextLine (rest.take width)) .escaped (rest.drop width)).map
              fun (value, after) => (gap.text ++ value, after)
          | none =>
            match escape? rest with
            | none => none
            | some (x, width) =>
              (quotedFrom double ((m.past c).pastAll (rest.take width)) .none (rest.drop width)).map
                fun (value, after) => (gap.text ++ x :: value, after)
        else
          (quotedFrom double (m.past c) .none rest).map fun (value, after) =>
            (gap.text ++ c :: value, after)
termination_by cs.length
decreasing_by all_goals (simp only [List.length_drop, List.length_cons]; omega)

/-- Reads a scalar in quotes, at the opening quote. -/
def quoted (double : Bool) (c : Cursor) : Option (List Char × Cursor) :=
  let c := c.skip 1
  quotedFrom double c.mark .none c.rest

/-! ## Plain scalars -/

/-- The characters that separate the parts of a collection in brackets. -/
def isFlowSign (c : Char) : Bool := c = ',' || c = '[' || c = ']' || c = '{' || c = '}'

/-- Whether a plain scalar ends before a text. A colon ends it before a gap, and in brackets the
signs of brackets end it. -/
def endsPlain (flow : Bool) : List Char → Bool
  | [] => true
  | ':' :: rest => atGap rest
  | c :: _ => flow && isFlowSign c

/-- Whether a text starts with a colon that no plain scalar in brackets may hold. -/
def startsStrayColon : List Char → Bool
  | ':' :: c :: _ => isFlowSign c || c = '?'
  | _ => false

/-- The value of a plain scalar from a position on, after a gap; also the gap after its last
word. Lines have to be indented by `indent`, except in brackets. -/
def plainFrom (flow : Bool) (indent : Nat) (m : Mark) (gap : Gap) :
    List Char → Option (List Char × Gap × Cursor)
  | [] => some ([], gap, ⟨m, []⟩)
  | c :: rest =>
    match breakWidth (c :: rest) with
    | some width =>
      plainFrom flow indent (m.nextLine ((c :: rest).take width)) (gap.lineBreak (breakText c))
        (rest.drop (width - 1))
    | none =>
      if isBlank c then
        if gap.isBroken ∧ m.column < indent ∧ c = '\t' then none
        else plainFrom flow indent (m.past c) (gap.blank c) rest
      else if m.column = 0 ∧ startsMarker (c :: rest) ∨ ¬ gap.isNone ∧ c = '#' ∨
          ¬ gap.isNone ∧ ¬ flow ∧ m.column < indent then
        some ([], gap, ⟨m, c :: rest⟩)
      else if flow ∧ startsStrayColon (c :: rest) then none
      else if endsPlain flow (c :: rest) then some ([], gap, ⟨m, c :: rest⟩)
      else
        (plainFrom flow indent (m.past c) .none rest).map fun (value, after) =>
          (gap.text ++ c :: value, after)
termination_by cs => cs.length
decreasing_by all_goals (simp only [List.length_drop, List.length_cons]; omega)

/-- Reads a plain scalar; also tells whether the cursor after it is on a line of its own. -/
def plain (flow : Bool) (indent : Nat) (c : Cursor) : Option (List Char × Bool × Cursor) :=
  (plainFrom flow indent c.mark .none c.rest).map fun (value, gap, after) =>
    (value, gap.isBroken, after)

/-! ## Blocks -/

/-- What becomes of the line breaks at the end of a block. -/
inductive Chomping where
  /-- All go. -/
  | strip
  /-- The first stays. -/
  | clip
  /-- All stay. -/
  | keep
deriving DecidableEq

/-- The chomping that a sign asks for. -/
def chomping? : List Char → Option (Chomping × List Char)
  | '+' :: rest => some (.keep, rest)
  | '-' :: rest => some (.strip, rest)
  | _ => none

/-- The indentation that a digit asks for; it is not zero. -/
def increment? : List Char → Option (Option (Nat × List Char))
  | c :: rest =>
    if c = '0' then none
    else if c.isDigit then some (some (c.toNat - '0'.toNat, rest))
    else some none
  | [] => some none

/-- The header of a block after its sign: chomping and indentation, in either order. -/
def blockHeader? (cs : List Char) : Option (Chomping × Nat × List Char) := do
  match chomping? cs with
  | some (chomping, cs) =>
    match ← increment? cs with
    | some (increment, cs) => pure (chomping, increment, cs)
    | none => pure (chomping, 0, cs)
  | none =>
    match ← increment? cs with
    | some (increment, cs) =>
      match chomping? cs with
      | some (chomping, cs) => pure (chomping, increment, cs)
      | none => pure (.clip, increment, cs)
    | none => pure (.clip, 0, cs)

/-- Empty lines and the indentation of the line after them. An `indent` of zero is not known yet;
`widest` is the widest indentation so far. The line breaks come last one first. -/
def blockBreaks (indent : Nat) (m : Mark) (widest : Nat) (breaks : List Char) (cs : List Char) :
    Option (List Char × Nat × Cursor) :=
  match cs with
  | [] => some (breaks, max widest m.column, ⟨m, []⟩)
  | c :: rest =>
    if c = ' ' ∧ (indent = 0 ∨ m.column < indent) then
      blockBreaks indent (m.past c) widest breaks rest
    else if c = '\t' ∧ (indent = 0 ∨ m.column < indent) then none
    else
      match breakWidth (c :: rest) with
      | some width =>
        blockBreaks indent (m.nextLine ((c :: rest).take width)) (max widest m.column)
          (breakText c :: breaks) (rest.drop (width - 1))
      | none => some (breaks, max widest m.column, ⟨m, c :: rest⟩)
termination_by cs.length
decreasing_by all_goals (simp only [List.length_drop, List.length_cons]; omega)

/-- Empty lines, then the indentation of the block: the one known, or the widest so far, and at
least `level`. -/
def blockGap (indent level : Nat) (c : Cursor) : Option (List Char × Nat × Cursor) := do
  let (breaks, widest, c) ← blockBreaks indent c.mark 0 [] c.rest
  pure (breaks.reverse, if indent = 0 then max (max widest level) 1 else indent, c)

/-- What stands before a line of a block. -/
structure BlockGap where
  /-- The end of the line before. -/
  lineEnd : Option Char := none
  /-- Whether the line before starts with a blank. -/
  afterBlank : Bool := false
  /-- Empty lines. -/
  breaks : List Char

/-- What stands between two lines in the value of a block. -/
def BlockGap.text (g : BlockGap) (folded beforeBlank : Bool) : List Char :=
  if folded ∧ g.lineEnd = some '\n' ∧ ¬ g.afterBlank ∧ ¬ beforeBlank then
    if g.breaks = [] then [' '] else g.breaks
  else g.lineEnd.toList ++ g.breaks

/-- The lines of a block, of which there are at most so many, and what stands after them. -/
def blockLines (folded : Bool) (indent : Nat) :
    Nat → BlockGap → Cursor → Option (List Char × BlockGap × Cursor)
  | 0, gap, c => some ([], gap, c)
  | lines + 1, gap, c =>
    match c.rest with
    | [] => some ([], gap, c)
    | x :: _ =>
      if c.mark.column ≠ indent then some ([], gap, c)
      else do
        let line := c.rest.takeWhile (!isBreak ·)
        let (lineEnd, after) := (c.skip line.length).readBreak
        let (breaks, _, after) ← blockGap indent indent after
        let (value, last, after) ← blockLines folded indent lines ⟨lineEnd, isBlank x, breaks⟩ after
        pure (gap.text folded (isBlank x) ++ line ++ value, last, after)

/-- What is left of the end of a block. -/
def Chomping.apply (chomping : Chomping) (last : BlockGap) : List Char :=
  match chomping with
  | .strip => []
  | .clip => last.lineEnd.toList
  | .keep => last.lineEnd.toList ++ last.breaks

/-- Reads a block at its sign; `level` is one more than the column of the collection around it,
or zero. -/
def block (folded : Bool) (level : Nat) (c : Cursor) : Option (List Char × Cursor) := do
  let c := c.skip 1
  let (chomping, increment, rest) ← blockHeader? c.rest
  let c ← (c.upTo rest).endLine?
  let indent := if increment = 0 then 0 else level - 1 + increment
  let (breaks, indent, c) ← blockGap indent level c
  let (value, last, c) ← blockLines folded indent c.rest.length { breaks } c
  pure (value ++ chomping.apply last, c)

end Scalar

end ReferenceDraws.Yaml
