import ReferenceDraws.Json.Reading
import ReferenceDraws.Json.Printer
import ReferenceDraws.Mismatch

/-!
# Typed reading of JSON

Decoders take a value as far as it was read and report the first fault front to back: a mismatch
where the document holds something else than expected, or a break where its text is wrong.

* Scalars, lists and maps have one decoder each.
* A record is read from an object, whose unknown members are skipped, or from an array of its
  fields in order.
* Where the shape is only known later, a value is first taken whole (`whole`).
-/

namespace ReferenceDraws.Json

/-- Why a document could not be read. -/
inductive Fault where
  /-- The text is wrong. -/
  | malformed
  /-- The text is right and holds something else than expected. -/
  | mismatch (m : Mismatch)
deriving DecidableEq

/-- The message of a fault. -/
def Fault.message : Fault → String
  | .malformed => "malformed JSON text"
  | .mismatch m => m.message

/-- Reads a value of a type, or reports the first fault. -/
abbrev Decoder (α : Type) := Reading → Except Fault α

namespace Decoder

/-- The levels of brackets that may be open at once. -/
def maxDepth : Nat := 127

/-- A number in a message. -/
def foundNumber : Number → Found
  | .nat n => .integer n.toNat ""
  | .negative n => .integer (-(n.toNat : Int)) ""
  | .double d => .double (String.ofList (Double.render numberStyle d))

/-- The fault of a value that is of another kind than expected. The inside of a container does
not matter, but a scalar has to be read first. -/
def wrongKind (expected : Expected) : Reading → Fault
  | .null => found (.empty "null")
  | .bool b => found (.bool b)
  | .number (some n) => found (foundNumber n)
  | .string (some s) => found (.string s)
  | .array _ _ => found .sequence
  | .object _ _ => found .map
  | .broken | .number none | .string none => .malformed
where
  /-- The mismatch with what stands there. -/
  found (what : Found) : Fault := .mismatch (.wrongKind what expected)

/-! ## Scalars -/

/-- A natural number of sixty-four bits. -/
def natural (expected : Expected) : Decoder UInt64
  | .number (some (.nat n)) => .ok n
  | .number (some (.negative n)) =>
    .error (.mismatch (.wrongValue (foundNumber (.negative n)) expected))
  | r => .error (wrongKind expected r)

/-- A size. -/
def size : Decoder UInt64 := natural .size

/-- A natural number that counts nothing. -/
def word : Decoder UInt64 := natural .word

/-- A double, from any number. -/
def double : Decoder Double
  | .number (some n) => .ok n.toDouble
  | r => .error (wrongKind .double r)

/-- A truth value. -/
def bool : Decoder Bool
  | .bool b => .ok b
  | r => .error (wrongKind .bool r)

/-- A string, under the name it has in a message. -/
def stringAs (expected : Expected) : Decoder String
  | .string (some s) => .ok s
  | r => .error (wrongKind expected r)

/-- A string. -/
def string : Decoder String := stringAs .string

/-- A path. -/
def path : Decoder String := stringAs .path

/-- Null, or what another decoder reads. -/
def nullable {α : Type} (decode : Decoder α) : Decoder (Option α)
  | .null => .ok none
  | r => (decode r).map some

/-- Nothing: a value that is not needed, which must only be complete. -/
def skip : Decoder Unit
  | .broken | .array _ false | .object _ false => .error .malformed
  | _ => .ok ()

/-! ## Lists and maps -/

/-- The items of an array one after another. -/
def items {α : Type} (decode : Decoder α) (closed : Bool) : List Reading → Except Fault (List α)
  | [] => if closed then .ok [] else .error .malformed
  | r :: rest => do
    let x ← decode r
    let xs ← items decode closed rest
    pure (x :: xs)

/-- An array. -/
def list {α : Type} (decode : Decoder α) : Decoder (List α)
  | .array rs closed => items decode closed rs
  | r => .error (wrongKind .sequence r)

/-- The key of a member, which has to be a string of Unicode text. -/
def key : Option String → Except Fault String
  | some k => .ok k
  | none => .error .malformed

/-- The members of an object one after another. -/
def members {α : Type} (decode : Decoder α) (closed : Bool) :
    List (Option String × Reading) → Except Fault (List (String × α))
  | [] => if closed then .ok [] else .error .malformed
  | (k, r) :: rest => do
    let k ← key k
    let x ← decode r
    let xs ← members decode closed rest
    pure ((k, x) :: xs)

/-- The entries of an object. -/
def entries {α : Type} (decode : Decoder α) : Decoder (List (String × α))
  | .object ms closed => members decode closed ms
  | r => .error (wrongKind .map r)

/-- An object as a map in the order of its keys' first places; the last value of a key counts. -/
def orderedMap {α : Type} (decode : Decoder α) : Decoder (OrderedMap String α) := fun r =>
  (entries decode r).map .ofList

/-- An object as a map sorted by key; the last value of a key counts. -/
def sortedMap {α : Type} (decode : Decoder α) : Decoder (SortedMap α) := fun r =>
  (entries decode r).map .ofList

/-! ## Whole values -/

mutual

/-- A value of any shape, complete and with at most `room` levels of brackets. -/
def whole (room : Nat) : Reading → Except Fault Json
  | .null => .ok .null
  | .bool b => .ok (.bool b)
  | .number (some n) => .ok (.number n)
  | .string (some s) => .ok (.string s)
  | .array rs closed =>
    if room = 0 then .error .malformed
    else do
      let xs ← wholeItems (room - 1) rs
      if closed then pure (.array xs) else .error .malformed
  | .object ms closed =>
    if room = 0 then .error .malformed
    else do
      let xs ← wholeMembers (room - 1) ms
      if closed then pure (.object xs) else .error .malformed
  | .broken | .number none | .string none => .error .malformed

/-- Items of any shape. -/
def wholeItems (room : Nat) : List Reading → Except Fault (List Json)
  | [] => .ok []
  | r :: rest => do
    let x ← whole room r
    let xs ← wholeItems room rest
    pure (x :: xs)

/-- Members of any shape. -/
def wholeMembers (room : Nat) :
    List (Option String × Reading) → Except Fault (List (String × Json))
  | [] => .ok []
  | (k, r) :: rest => do
    let k ← key k
    let x ← whole room r
    let xs ← wholeMembers room rest
    pure ((k, x) :: xs)

end

/-! ## Cases -/

/-- The case of a name. -/
def choose {α : Type} (cases : List (String × α)) (name : String) : Except Fault α :=
  match cases.lookup name with
  | some value => .ok value
  | none => .error (.mismatch (.unknownCase name (cases.map Prod.fst)))

/-- A case without content, chosen by name: its name as a string, or an object with the name
as its only key and null under it. -/
def case {α : Type} (cases : List (String × α)) : Decoder α
  | .string (some name) => choose cases name
  | .object ((some name, content) :: more) closed => do
    let value ← choose cases name
    match content with
    | .null => pure ()
    | r => throw (wrongKind .unit r)
    if more.isEmpty && closed then pure value else throw .malformed
  | _ => .error .malformed

/-- The name of a case, as a string. -/
def caseName {α : Type} (cases : List (String × α)) : Decoder α
  | .string (some name) => choose cases name
  | r => .error (wrongKind .caseName r)

end Decoder

/-! ## Records -/

/-- One field of a record while it is being read into a state. -/
structure Slot (σ : Type) where
  /-- The field's name. -/
  name : String
  /-- Whether the record may end before the field where it is written as an array. -/
  droppable : Bool
  /-- Whether the field has been read. -/
  filled : σ → Bool
  /-- Reads the field. -/
  fill : Reading → σ → Except Fault σ

/-- How a record is read: its fields in order, and the value they make once all members of
the document have been seen. -/
structure RecordDecoder (α : Type) where
  /-- What is known of the fields while the record is being read. -/
  State : Type
  /-- Nothing read yet. -/
  start : State
  /-- The fields. -/
  slots : List (Slot State)
  /-- The record, or the first field missing. -/
  finish : State → Except Fault α

namespace RecordDecoder

/-- A field that must be there. -/
def required {α : Type} (name : String) (decode : Decoder α) : RecordDecoder α where
  State := Option α
  start := none
  slots := [⟨name, false, Option.isSome, fun r _ => (decode r).map some⟩]
  finish
    | some x => .ok x
    | none => .error (.mismatch (.missingField name))

/-- A field with a default. -/
def defaulted {α : Type} (name : String) (fallback : α) (decode : Decoder α) :
    RecordDecoder α where
  State := Option α
  start := none
  slots := [⟨name, true, Option.isSome, fun r _ => (decode r).map some⟩]
  finish state := .ok (state.getD fallback)

/-- A field that an object may leave out or set to null. -/
def optional {α : Type} (name : String) (decode : Decoder α) : RecordDecoder (Option α) where
  State := Option (Option α)
  start := none
  slots := [⟨name, false, Option.isSome, fun r _ => (Decoder.nullable decode r).map some⟩]
  finish state := .ok (state.getD none)

/-- A record of the fields of two parts. -/
def both {α β γ : Type} (combine : α → β → γ) (a : RecordDecoder α) (b : RecordDecoder β) :
    RecordDecoder γ where
  State := a.State × b.State
  start := (a.start, b.start)
  slots :=
    a.slots.map (fun s => ⟨s.name, s.droppable, fun st => s.filled st.1,
      fun r st => (s.fill r st.1).map (·, st.2)⟩) ++
    b.slots.map (fun s => ⟨s.name, s.droppable, fun st => s.filled st.2,
      fun r st => (s.fill r st.2).map (st.1, ·)⟩)
  finish st := do
    let x ← a.finish st.1
    let y ← b.finish st.2
    pure (combine x y)

/-- A record made from another. -/
def map {α β : Type} (f : α → β) (a : RecordDecoder α) : RecordDecoder β where
  State := a.State
  start := a.start
  slots := a.slots
  finish st := (a.finish st).map f

/-- One more field for a record under construction. -/
def and {α β : Type} (f : RecordDecoder (α → β)) (a : RecordDecoder α) : RecordDecoder β :=
  both (fun g x => g x) f a

/-- Reads the members of an object. A known name may come once; unknown members are skipped. -/
def readMembers {σ : Type} (slots : List (Slot σ)) (closed : Bool) :
    σ → List (Option String × Reading) → Except Fault σ
  | state, [] => if closed then .ok state else .error .malformed
  | state, (k, r) :: rest => do
    let k ← Decoder.key k
    match slots.find? (·.name = k) with
    | some slot =>
      if slot.filled state then throw (.mismatch (.duplicateField k))
      readMembers slots closed (← slot.fill r state) rest
    | none =>
      Decoder.skip r
      readMembers slots closed state rest

/-- Reads fields in order from the items of an array; the index counts those read. -/
def readItems {σ : Type} (expected : Expected) (surplus : Nat → Nat → Fault) (closed : Bool) :
    Nat → σ → List (Slot σ) → List Reading → Except Fault σ
  | _, state, [], [] => if closed then .ok state else .error .malformed
  | index, _, [], more => .error (surplus index more.length)
  | index, state, slot :: slots, [] =>
    if !closed then .error .malformed
    else if slot.droppable then readItems expected surplus closed (index + 1) state slots []
    else .error (.mismatch (.wrongLength index expected))
  | index, state, slot :: slots, r :: rest => do
    let state ← slot.fill r state
    readItems expected surplus closed (index + 1) state slots rest

/-- Reads a record from an object or an array; `surplus` is the fault of an array that goes on
after the last field. -/
def readWith {α : Type} (surplus : Nat → Nat → Fault) (name : String) (record : RecordDecoder α) :
    Decoder α
  | .object ms closed => do
    record.finish (← readMembers record.slots closed record.start ms)
  | .array rs closed => do
    let expected := .recordOf name record.slots.length
    record.finish (← readItems expected surplus closed 0 record.start record.slots rs)
  | r => .error (Decoder.wrongKind (.record name) r)

/-- Reads a record from a text. -/
def read {α : Type} (name : String) (record : RecordDecoder α) : Decoder α :=
  record.readWith (fun _ _ => .malformed) name

/-- Reads a record from a value that was taken whole. -/
def readWhole {α : Type} (name : String) (record : RecordDecoder α) (value : Json) :
    Except Fault α :=
  record.readWith
    (fun count more => .mismatch (.wrongLength (count + more) (.items count))) name (.ofJson value)

end RecordDecoder

/-! ## Documents -/

/-- Reads a document that holds one value and nothing else. -/
def decodeStream {α : Type} (decode : Decoder α) (text : Text.Stream) : Except Fault α := do
  let (value, rest) := Reading.parse text
  let x ← decode value
  if (Reading.skipBlanks rest).isEmpty then pure x else throw .malformed

/-- Reads a document from bytes. -/
def decodeBytes {α : Type} (decode : Decoder α) (bytes : List UInt8) : Except Fault α :=
  decodeStream decode (Text.decode bytes)

/-- Reads a document from a string. -/
def decodeString {α : Type} (decode : Decoder α) (text : String) : Except Fault α :=
  decodeStream decode (Text.stream text)

end ReferenceDraws.Json
