import ReferenceDraws.Yaml.Event

/-!
# YAML documents

The only document of a text, as the parts of its root node in order. A text that is wrong has the
parts before the error, and is not complete.

A reference finds its node by a number. An anchor has as its number how many other names there are
when it is met, and a name stands for the number that it got last. Where two anchors have one
number, it is that of the later node, also for references before it.

* `Document.ofText`: the document of a text.
-/

namespace ReferenceDraws.Yaml

/-- A part of a node. -/
inductive Part where
  | scalar (mark : Mark) (s : Scalar)
  | sequenceStart (mark : Mark)
  | sequenceEnd
  | mappingStart (mark : Mark)
  | mappingEnd
  /-- Stands for a node elsewhere, by its first part. -/
  | reference (first : Part)

/-- A document as far as it could be read. -/
structure Document where
  /-- The parts of its root node; none if there is no document. -/
  parts : List Part
  /-- Whether the text has no error, and no other document. -/
  complete : Bool

/-! ## Anchors -/

/-- The anchors of a document so far. -/
structure Anchors where
  /-- The number that each name stands for. -/
  numbers : List (String × Nat) := []
  /-- The first part of the node of each number, the latest node first. -/
  nodes : List (Nat × Part) := []

namespace Anchors

/-- Anchors with that of a node, if it has one. -/
def add (anchors : Anchors) (name : Option String) (first : Part) : Anchors :=
  match name with
  | some name =>
    let number := anchors.numbers.length
    ⟨(name, number) :: anchors.numbers.filter (·.1 ≠ name), (number, first) :: anchors.nodes⟩
  | none => anchors

end Anchors

/-- A part of a node in which a reference has the number of its node. -/
inductive Draft where
  | part (p : Part)
  | reference (number : Nat)

/-- The part that a draft stands for. -/
def Draft.resolve? (anchors : Anchors) : Draft → Option Part
  | .part p => some p
  | .reference number => (anchors.nodes.lookup number).map .reference

/-! ## Reading -/

namespace Document

/-- Whether nothing follows. -/
def isAtEnd (r : EventReader) : Bool := r.next.any (·.1 = .streamEnd)

/-- Collects the drafts of a document from at most so many events, with all its anchors, and
whether it is complete. -/
def collect : Nat → Anchors → EventReader → List Draft × Anchors × Bool
  | 0, anchors, _ => ([], anchors, false)
  | events + 1, anchors, r =>
    match r.next with
    | none => ([], anchors, false)
    | some (e, r) =>
      let on (anchors : Anchors) (d : Draft) : List Draft × Anchors × Bool :=
        let (ds, result) := collect events anchors r
        (d :: ds, result)
      match e with
      | .documentStart => collect events anchors r
      | .documentEnd => ([], anchors, isAtEnd r)
      | .streamEnd => ([], anchors, true)
      | .reference name =>
        match anchors.numbers.lookup name with
        | some number => on anchors (.reference number)
        | none => ([], anchors, false)
      | .scalar anchor m s => on (anchors.add anchor (.scalar m s)) (.part (.scalar m s))
      | .sequenceStart anchor m =>
        on (anchors.add anchor (.sequenceStart m)) (.part (.sequenceStart m))
      | .sequenceEnd => on anchors (.part .sequenceEnd)
      | .mappingStart anchor m =>
        on (anchors.add anchor (.mappingStart m)) (.part (.mappingStart m))
      | .mappingEnd => on anchors (.part .mappingEnd)

/-- The most events of a text: a character makes at most four tokens, among them those that open and
close a block collection and mark a key, and a token at most four events. -/
def maxEvents (text : String) : Nat := 16 * (text.length + 4)

/-- The document of a text. -/
def ofText (text : String) : Document :=
  let (drafts, anchors, complete) := collect (maxEvents text) {} (.start text)
  ⟨drafts.filterMap (·.resolve? anchors), complete⟩

end Document

end ReferenceDraws.Yaml
