import ReferenceDraws.Yaml.Lexer

/-!
# Events of a YAML document

The structure of a text as a sequence of events: documents, collections and scalars start and
end. Events come one after another, so that a text with an error has the events before it.

* `EventReader.next`: the next event.
-/

namespace ReferenceDraws.Yaml

/-- A part of the structure of a text. Nodes start somewhere, and may have an anchor. -/
inductive Event where
  | documentStart
  | documentEnd
  | streamEnd
  /-- Stands for the node of an anchor. -/
  | reference (anchor : String)
  | scalar (anchor : Option String) (mark : Mark) (scalar : Scalar)
  | sequenceStart (anchor : Option String) (mark : Mark)
  | sequenceEnd
  | mappingStart (anchor : Option String) (mark : Mark)
  | mappingEnd
deriving DecidableEq

/-- What comes next in the structure of a text. -/
inductive Place where
  /-- The first document, which may start without a marker. -/
  | firstDocument
  /-- Another document. -/
  | document
  /-- The node of a document after its marker. -/
  | documentContent
  /-- The node of a document without a marker. -/
  | documentNode
  | documentEnd
  /-- An item of a block sequence. -/
  | blockItem
  /-- An item of a block sequence that is not indented. -/
  | bareItem
  | blockKey
  | blockValue
  /-- An item of a sequence in brackets; before all but the first stands a comma. -/
  | flowItem (first : Bool)
  /-- A mapping of one key as an item of a sequence in brackets. -/
  | pairKey
  | pairValue
  | pairEnd
  | flowKey (first : Bool)
  | flowValue
  /-- The value of a key that has none. -/
  | flowNoValue
  | finished
deriving DecidableEq

/-- The state of reading events. -/
structure EventReader where
  lexer : Lexer
  /-- What comes next. -/
  place : Place := .firstDocument
  /-- What comes after that, innermost first. -/
  later : List Place := []
  /-- The handles of tags. -/
  handles : List (String × String) := []

namespace EventReader

/-- At the start of a text. -/
def start (text : String) : EventReader :=
  let (text, whole) := readable text
  { lexer := .start text whole }

/-- The next token. -/
def peek (r : EventReader) : Option (Token × EventReader) :=
  r.lexer.peek.map fun (t, lexer) => (t.token, { r with lexer })

/-- Where the next token starts. -/
def mark (r : EventReader) : Mark := r.lexer.mark

/-- After the next token. -/
def advance (r : EventReader) : EventReader := { r with lexer := r.lexer.advance }

/-- With a place to go on at. -/
def goTo (r : EventReader) (place : Place) : EventReader := { r with place }

/-- With a place to come back to. -/
def comeBack (r : EventReader) (place : Place) : EventReader := { r with later := place :: r.later }

/-- On to the innermost place to come back to. -/
def pop (r : EventReader) : EventReader :=
  { r with place := r.later.headD .finished, later := r.later.tail }

/-- A node that is not there; it starts where the next token does. -/
def emptyNode (r : EventReader) (place : Place) : Option (Event × EventReader) :=
  some (.scalar none r.mark ⟨"", .plain, none⟩, r.goTo place)

/-! ## Documents -/

/-- The handles that need no directive. -/
def standardHandles : List (String × String) := [("!", "!"), ("!!", "tag:yaml.org,2002:")]

/-- Reads directives, at most so many, given those before them. -/
def readDirectives : Nat → Bool → EventReader → Option EventReader
  | 0, _, r => some r
  | count + 1, versioned, r => do
    match ← r.peek with
    | (.version major minor, r) =>
      if versioned ∨ major ≠ 1 ∨ ¬ (minor = 1 ∨ minor = 2) then none
      else readDirectives count true r.advance
    | (.tagDirective handle expansion, r) =>
      if (r.handles.lookup handle).isSome then none
      else
        let handles := (handle, expansion) :: r.handles
        readDirectives count versioned { r.advance with handles }
    | (_, r) => pure { r with handles := r.handles ++ standardHandles }

/-- A document with a marker, or the end of the text. -/
def explicitDocument (r : EventReader) : Option (Event × EventReader) := do
  match ← r.peek with
  | (.streamEnd, r) => pure (.streamEnd, r.advance.goTo .finished)
  | (_, r) =>
    let r ← readDirectives (r.lexer.cursor.rest.length + 2) false { r with handles := [] }
    match ← r.peek with
    | (.documentStart, r) =>
      pure (.documentStart, (r.advance.comeBack .documentEnd).goTo .documentContent)
    | _ => none

/-- The first document. -/
def firstDocument (r : EventReader) : Option (Event × EventReader) := do
  match ← r.peek with
  | (.version _ _, r) | (.tagDirective _ _, r) | (.documentStart, r) | (.streamEnd, r) =>
    explicitDocument r
  | (_, r) =>
    let r := { r with handles := standardHandles }
    pure (.documentStart, (r.comeBack .documentEnd).goTo .documentNode)

/-- After markers that end documents, at most so many. -/
def skipDocumentEnds : Nat → EventReader → Option EventReader
  | 0, r => some r
  | count + 1, r => do
    match ← r.peek with
    | (.documentEnd, r) => skipDocumentEnds count r.advance
    | (_, r) => pure r

/-- A document after another one. -/
def nextDocument (r : EventReader) : Option (Event × EventReader) := do
  explicitDocument (← skipDocumentEnds (r.lexer.cursor.rest.length + 2) r)

/-- The end of a document. -/
def endDocument (r : EventReader) : Option (Event × EventReader) := do
  match ← r.peek with
  | (.documentEnd, r) => pure (.documentEnd, r.advance.goTo .document)
  | (_, r) => pure (.documentEnd, r.goTo .document)

/-! ## Nodes -/

/-- The anchor and the tag before a node, in either order. -/
def properties (r : EventReader) :
    Option (Option String × Option (String × String) × EventReader) := do
  match ← r.peek with
  | (.anchor name, r) =>
    match ← r.advance.peek with
    | (.tag handle suffix, r) => pure (some name, some (handle, suffix), r.advance)
    | (_, r) => pure (some name, none, r)
  | (.tag handle suffix, r) =>
    match ← r.advance.peek with
    | (.anchor name, r) => pure (some name, some (handle, suffix), r.advance)
    | (_, r) => pure (none, some (handle, suffix), r)
  | (_, r) => pure (none, none, r)

/-- A tag in full; its handle has to be known. -/
def fullTag? (r : EventReader) : Option (String × String) → Option (Option String)
  | none => some none
  | some (handle, suffix) =>
    if handle.isEmpty then some (some suffix)
    else (r.handles.lookup handle).map fun expansion => some (expansion ++ suffix)

/-- The start of a node. Block collections start only where `block` says so, and a sequence that
is not indented only where `bare` does. -/
def node (block bare : Bool) (r : EventReader) : Option (Event × EventReader) := do
  match ← r.peek with
  | (.reference anchor, r) => pure (.reference anchor, r.advance.pop)
  | (_, r) =>
    let m := r.mark
    let (anchor, tagParts, r) ← properties r
    let tag ← r.fullTag? tagParts
    match ← r.peek with
    | (.scalar value style, r) => pure (.scalar anchor m ⟨value, style, tag⟩, r.advance.pop)
    | (.flowSequenceStart, r) => pure (.sequenceStart anchor m, r.advance.goTo (.flowItem true))
    | (.flowMappingStart, r) => pure (.mappingStart anchor m, r.advance.goTo (.flowKey true))
    | (t, r) =>
      if bare ∧ t = .blockEntry then pure (.sequenceStart anchor m, r.goTo .bareItem)
      else if block ∧ t = .blockSequenceStart then
        pure (.sequenceStart anchor m, r.advance.goTo .blockItem)
      else if block ∧ t = .blockMappingStart then
        pure (.mappingStart anchor m, r.advance.goTo .blockKey)
      else if anchor.isSome ∨ tag.isSome then pure (.scalar anchor m ⟨"", .plain, tag⟩, r.pop)
      else none

/-- The node of a document after its marker, if there is one. -/
def documentContent (r : EventReader) : Option (Event × EventReader) := do
  match ← r.peek with
  | (.version _ _, r) | (.tagDirective _ _, r) | (.documentStart, r) | (.documentEnd, r)
  | (.streamEnd, r) => pure (.scalar none r.mark ⟨"", .plain, none⟩, r.pop)
  | (_, r) => node true false r

/-- A node, unless a token that ends it comes first. -/
def nodeOrEmpty (ends : List Token) (block bare : Bool) (place : Place) (r : EventReader) :
    Option (Event × EventReader) := do
  let (t, r) ← r.peek
  if ends.contains t then r.emptyNode place else node block bare (r.comeBack place)

/-! ## Block collections -/

/-- An item of a block sequence, or its end. -/
def blockItem (r : EventReader) : Option (Event × EventReader) := do
  match ← r.peek with
  | (.blockEntry, r) =>
    nodeOrEmpty [.blockEntry, .blockEnd] true false .blockItem r.advance
  | (.blockEnd, r) => pure (.sequenceEnd, r.advance.pop)
  | _ => none

/-- An item of a sequence that is not indented, or its end. -/
def bareItem (r : EventReader) : Option (Event × EventReader) := do
  match ← r.peek with
  | (.blockEntry, r) =>
    nodeOrEmpty [.blockEntry, .key, .value, .blockEnd] true false .bareItem r.advance
  | (_, r) => pure (.sequenceEnd, r.pop)

/-- A key of a block mapping, or its end. -/
def blockKey (r : EventReader) : Option (Event × EventReader) := do
  match ← r.peek with
  | (.key, r) => nodeOrEmpty [.key, .value, .blockEnd] true true .blockValue r.advance
  | (.blockEnd, r) => pure (.mappingEnd, r.advance.pop)
  | _ => none

/-- The value of a key in a block mapping. -/
def blockValue (r : EventReader) : Option (Event × EventReader) := do
  match ← r.peek with
  | (.value, r) => nodeOrEmpty [.key, .value, .blockEnd] true true .blockKey r.advance
  | (_, r) => r.emptyNode .blockKey

/-! ## Collections in brackets -/

/-- After the comma between two parts; the first part has none before it. -/
def afterComma (first : Bool) (closing : Token) (r : EventReader) :
    Option (Token × EventReader) := do
  let (t, r) ← r.peek
  if first ∨ t = closing then pure (t, r)
  else if t = .flowEntry then r.advance.peek
  else none

/-- An item of a sequence in brackets, or its end. -/
def flowItem (first : Bool) (r : EventReader) : Option (Event × EventReader) := do
  match ← afterComma first .flowSequenceEnd r with
  | (.flowSequenceEnd, r) => pure (.sequenceEnd, r.advance.pop)
  | (.key, r) => pure (.mappingStart none r.mark, r.advance.goTo .pairKey)
  | (_, r) => node false false (r.comeBack (.flowItem false))

/-- The key of a single pair. Of a pair that has none, the token in its place is dropped. -/
def pairKey (r : EventReader) : Option (Event × EventReader) := do
  let (t, r) ← r.peek
  if t = .value ∨ t = .flowEntry ∨ t = .flowSequenceEnd then r.advance.emptyNode .pairValue
  else node false false (r.comeBack .pairValue)

/-- The value of a single pair. -/
def pairValue (r : EventReader) : Option (Event × EventReader) := do
  match ← r.peek with
  | (.value, r) => nodeOrEmpty [.flowEntry, .flowSequenceEnd] false false .pairEnd r.advance
  | (_, r) => r.emptyNode .pairEnd

/-- The end of a single pair. -/
def pairEnd (r : EventReader) : Option (Event × EventReader) := do
  let (_, r) ← r.peek
  pure (.mappingEnd, r.goTo (.flowItem false))

/-- A key of a mapping in brackets, or its end. -/
def flowKey (first : Bool) (r : EventReader) : Option (Event × EventReader) := do
  match ← afterComma first .flowMappingEnd r with
  | (.flowMappingEnd, r) => pure (.mappingEnd, r.advance.pop)
  | (.key, r) =>
    nodeOrEmpty [.value, .flowEntry, .flowMappingEnd] false false .flowValue r.advance
  | (_, r) => node false false (r.comeBack .flowNoValue)

/-- The value of a key in brackets. -/
def flowValue (r : EventReader) : Option (Event × EventReader) := do
  match ← r.peek with
  | (.value, r) => nodeOrEmpty [.flowEntry, .flowMappingEnd] false false (.flowKey false) r.advance
  | (_, r) => r.emptyNode (.flowKey false)

/-- The value of a key in brackets that has none. -/
def flowNoValue (r : EventReader) : Option (Event × EventReader) := do
  let (_, r) ← r.peek
  r.emptyNode (.flowKey false)

/-! ## The next event -/

/-- The next event, and the state after it; none at an error. -/
def next (r : EventReader) : Option (Event × EventReader) :=
  match r.place with
  | .firstDocument => firstDocument r
  | .document => nextDocument r
  | .documentContent => documentContent r
  | .documentNode => node true false r
  | .documentEnd => endDocument r
  | .blockItem => blockItem r
  | .bareItem => bareItem r
  | .blockKey => blockKey r
  | .blockValue => blockValue r
  | .flowItem first => flowItem first r
  | .pairKey => pairKey r
  | .pairValue => pairValue r
  | .pairEnd => pairEnd r
  | .flowKey first => flowKey first r
  | .flowValue => flowValue r
  | .flowNoValue => flowNoValue r
  | .finished => none

end EventReader

end ReferenceDraws.Yaml
