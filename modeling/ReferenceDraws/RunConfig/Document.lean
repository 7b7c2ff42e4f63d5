import ReferenceDraws.Files.Tree
import ReferenceDraws.RunConfig.Basic
import ReferenceDraws.Yaml.Document
import ReferenceDraws.Yaml.Meaning

/-!
# Configuration documents

A configuration as a YAML mapping. A field that is absent has its default, unknown fields are
skipped, and a document without a node is the default configuration.

* `RunConfig.ofYaml`: the valid configuration of a text;
* `RunConfig.load`: the valid configuration of a file.
-/

namespace ReferenceDraws.RunConfig

/-- Why a text is no configuration. -/
inductive DocumentFault where
  /-- It is not the text of one YAML document. -/
  | malformed
  /-- The document holds something else at a node that starts somewhere. -/
  | mismatch (m : Mismatch) (mark : Yaml.Mark)
deriving DecidableEq

/-- The message of a fault, with its place. -/
def DocumentFault.message : DocumentFault → String
  | .malformed => "malformed YAML text"
  | .mismatch m mark => m.message ++ mark.place

/-- The fields, with what each holds. -/
def fields : List (String × Expected) :=
  [("chains", .size), ("draws_per_chain", .size), ("warmup", .size), ("thin", .size),
    ("seed", .word)]

/-- A configuration with the given values of fields, and defaults for the others. -/
def ofFields (values : List (String × UInt64)) : RunConfig :=
  let value (name : String) (fallback : UInt64) := (values.lookup name).getD fallback
  let c : RunConfig := {}
  ⟨value "chains" c.chains, value "draws_per_chain" c.drawsPerChain, value "warmup" c.warmup,
    value "thin" c.thin, value "seed" c.seed⟩

/-! ## Reading parts -/

/-- What is reported of a node that starts with a part where something else was expected. -/
def unexpected (expected : Expected) : Yaml.Part → DocumentFault
  | .scalar m s => .mismatch (s.mismatch expected) m
  | .sequenceStart m => .mismatch (.wrongKind .sequence expected) m
  | .mappingStart m => .mismatch (.wrongKind .map expected) m
  | .reference first => unexpected expected first
  | .sequenceEnd | .mappingEnd => .malformed

/-- The value of a field, from the first part of its node. -/
def readValue (expected : Expected) : Yaml.Part → Except DocumentFault UInt64
  | .scalar m s => s.word?.elim (.error (unexpected expected (.scalar m s))) .ok
  | .reference first => readValue expected first
  | p => .error (unexpected expected p)

/-- A fault of the value under a key. -/
def DocumentFault.under (key : String) : DocumentFault → DocumentFault
  | .mismatch m mark => .mismatch (.within key m) mark
  | .malformed => .malformed

/-- The key that a node with a part is, and what it is called in messages: a key that stands
elsewhere has no name there. -/
def readKey : Yaml.Part → Except DocumentFault (String × String)
  | .scalar _ s => .ok (s.value, s.value)
  | .reference (.scalar _ s) => .ok (s.value, "?")
  | p => .error (unexpected .fieldName p)

/-- The open collections after a part of a node that is skipped, or none after its last part. -/
def depthAfter (depth : Nat) : Yaml.Part → Option Nat
  | .sequenceStart _ | .mappingStart _ => some (depth + 1)
  | .sequenceEnd | .mappingEnd => if depth ≤ 1 then none else some (depth - 1)
  | .scalar _ _ | .reference _ => if depth = 0 then none else some depth

/-- Reads the fields of a mapping that starts somewhere, given those before; `skipping` is the number
of open collections in the value of an unknown key. -/
def readFields (mark : Yaml.Mark) (values : List (String × UInt64)) (skipping : Option Nat) :
    List Yaml.Part → Except DocumentFault (List (String × UInt64))
  | [] => .error .malformed
  | p :: rest =>
    match skipping, p with
    | some depth, p => readFields mark values (depthAfter depth p) rest
    | none, .mappingEnd => .ok values
    | none, p => do
      let (key, name) ← readKey p
      match fields.lookup key with
      | none => readFields mark values (some 0) rest
      | some expected =>
        if (values.lookup key).isSome then throw (.mismatch (.duplicateField key) mark)
        match rest with
        | [] => throw .malformed
        | v :: rest =>
          let value ← (readValue expected v).mapError (·.under name)
          readFields mark (values ++ [(key, value)]) none rest

/-- Reads a configuration from the parts of a document. -/
def readParts : List Yaml.Part → Except DocumentFault RunConfig
  | .mappingStart m :: rest => (readFields m [] none rest).map ofFields
  | .scalar m s :: _ =>
    if s.value.isEmpty ∧ s.style = .plain then .ok {}
    else .error (unexpected (.record recordName) (.scalar m s))
  | p :: _ => .error (unexpected (.record recordName) p)
  | [] => .ok {}

/-- The configuration of a document, valid or not. What the document holds is judged before an error
further on. -/
def ofDocument (d : Yaml.Document) : Except DocumentFault RunConfig := do
  if d.parts.isEmpty ∧ ¬ d.complete then throw .malformed
  let c ← readParts d.parts
  if d.complete then pure c else throw .malformed

/-! ## Texts and files -/

/-- The failure of a text that is no configuration. -/
def DocumentFault.failure (f : DocumentFault) : Failure :=
  ⟨.config, .new "pdbref_core.config_parse" f.message⟩

/-- The valid configuration of a text. -/
def ofYaml (text : String) : Except Failure RunConfig := do
  let c ← (ofDocument (.ofText text)).mapError DocumentFault.failure
  c.validate.mapError Fault.failure
  pure c

/-- The failure of a configuration file that cannot be read. -/
def unreadable (message : String) : Failure := ⟨.config, .new "pdbref_core.config_read" message⟩

/-- The text of a file. -/
def readText (t : FileTree) (path : String) : Except Failure String := do
  let bytes ← (t.read path).mapError fun fault => unreadable fault.message
  (Text.decode? bytes).elim (.error (unreadable "the file is not valid text")) .ok

/-- Loads the valid configuration of a file; a failure names the file. -/
def load (t : FileTree) (path : String) : Except Failure RunConfig :=
  (readText t path >>= ofYaml).mapError (Failure.addContextIf .config "path" path)

end ReferenceDraws.RunConfig
