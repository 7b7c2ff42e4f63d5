import ReferenceDraws.Double.Written
import ReferenceDraws.Text.Quoted

/-!
# Documents that do not fit what is read from them

What can be wrong with a well-formed document: a value of another kind than expected, a record
with a field too few or twice, a name outside a fixed list. Each has one message.
-/

namespace ReferenceDraws

/-- What a document holds where something else was expected. -/
inductive Found where
  /-- The empty value, by the name its format has for it. -/
  | empty (name : String)
  | bool (value : Bool)
  /-- An integer, and a note on its width if it exceeds sixty-four bits. -/
  | integer (value : Int) (width : String)
  /-- A number that is no integer, as its format writes it. -/
  | double (text : String)
  | string (value : String)
  | sequence
  | map
deriving DecidableEq

namespace Found

/-- A found value in a message. -/
def describe : Found → String
  | .empty name => name
  | .bool true => "boolean \x60true\x60"
  | .bool false => "boolean \x60false\x60"
  | .integer n width => "integer \x60" ++ toString n ++ "\x60" ++ width
  | .double text => "floating point \x60" ++ text ++ "\x60"
  | .string s => "string " ++ Text.quoted s
  | .sequence => "sequence"
  | .map => "map"

end Found

/-- What a reader expects at a place. -/
inductive Expected where
  /-- A size: a natural number of sixty-four bits that counts something. -/
  | size
  /-- A natural number of sixty-four bits. -/
  | word
  | double
  | bool
  | string
  | path
  | sequence
  | map
  /-- A value without content, as stands under the name of a case. -/
  | unit
  /-- The name of a field. -/
  | fieldName
  /-- The name of a case. -/
  | caseName
  /-- The value of a YAML tag. -/
  | tagged (kind : String)
  /-- A record, by name. -/
  | record (name : String)
  /-- A record of a number of fields, written as a list. -/
  | recordOf (name : String) (fields : Nat)
  /-- A case with its content, by the name of the type. -/
  | taggedCase (name : String)
  /-- A list of exactly so many items. -/
  | items (count : Nat)
deriving DecidableEq

namespace Expected

/-- A count with its noun. -/
def counted (n : Nat) (noun : String) : String :=
  toString n ++ " " ++ noun ++ (if n = 1 then "" else "s")

/-- An expectation in a message. -/
def describe : Expected → String
  | .size => "usize"
  | .word => "u64"
  | .double => "f64"
  | .bool => "a boolean"
  | .string => "a string"
  | .path => "path string"
  | .sequence => "a sequence"
  | .map => "a map"
  | .unit => "unit"
  | .fieldName => "field identifier"
  | .caseName => "variant identifier"
  | .tagged kind => kind
  | .record name => "struct " ++ name
  | .recordOf name n => "struct " ++ name ++ " with " ++ counted n "element"
  | .taggedCase name => "adjacently tagged enum " ++ name
  | .items n => counted n "element" ++ " in sequence"

end Expected

/-- Why a well-formed document does not fit. -/
inductive Mismatch where
  | wrongKind (found : Found) (expected : Expected)
  | wrongValue (found : Found) (expected : Expected)
  | wrongLength (length : Nat) (expected : Expected)
  | missingField (name : String)
  | duplicateField (name : String)
  | unknownCase (name : String) (cases : List String)
  /-- None of the shapes of a type fits. -/
  | noShape (type : String)
  /-- The value has the right shape and is refused for a reason of its own. -/
  | refused (reason : String)
  /-- A mismatch at a field of the document. -/
  | within (field : String) (inner : Mismatch)
deriving DecidableEq

namespace Mismatch

/-- A name in back quotes. -/
def named (name : String) : String := "\x60" ++ name ++ "\x60"

/-- The names a case may have. -/
def oneOf : List String → String
  | [a] => named a
  | [a, b] => named a ++ " or " ++ named b
  | names => "one of " ++ ", ".intercalate (names.map named)

/-- The message of a mismatch. -/
def message : Mismatch → String
  | .wrongKind found expected =>
    "invalid type: " ++ found.describe ++ ", expected " ++ expected.describe
  | .wrongValue found expected =>
    "invalid value: " ++ found.describe ++ ", expected " ++ expected.describe
  | .wrongLength n expected =>
    "invalid length " ++ toString n ++ ", expected " ++ expected.describe
  | .missingField name => "missing field " ++ named name
  | .duplicateField name => "duplicate field " ++ named name
  | .unknownCase name cases => "unknown variant " ++ named name ++ ", expected " ++ oneOf cases
  | .noShape type => "data did not match any variant of untagged enum " ++ type
  | .refused reason => reason
  | .within field inner => field ++ ": " ++ inner.message

end Mismatch

end ReferenceDraws
