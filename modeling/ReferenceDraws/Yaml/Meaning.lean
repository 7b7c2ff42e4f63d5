import ReferenceDraws.Double.Decimal
import ReferenceDraws.Mismatch
import ReferenceDraws.Yaml.Scalar

/-!
# What YAML scalars mean

A plain scalar may be nothing, a truth value, an integer or another number; any other scalar is
a string. Integers may be written in base two, eight and sixteen; one with a zero before its
digits is a string. A standard tag asks for one of these kinds.

* `Scalar.word?`: a natural number of sixty-four bits;
* `Scalar.mismatch`: what is reported of a scalar that stands for something else.
-/

namespace ReferenceDraws.Yaml

namespace Scalar

/-! ## Integers -/

/-- The number that digits in a base write. -/
def digitsValue? (base : Nat) (cs : List Char) : Option Nat :=
  if cs = [] then none
  else
    cs.foldlM (fun n c => do
      let d ← hexDigit? c
      if d < base then some (n * base + d) else none) 0

/-- Digits after a sign, if there is one. -/
def unsigned : List Char → List Char
  | '+' :: cs => cs
  | '-' :: cs => cs
  | cs => cs

/-- Whether a text is several digits of which the first is zero. -/
def isZeroPadded (cs : List Char) : Bool :=
  match unsigned cs with
  | '0' :: c :: rest => (c :: rest).all Char.isDigit
  | _ => false

/-- The number that a base mark and digits, or decimal digits, write. -/
def magnitude? : List Char → Option Nat
  | '0' :: 'x' :: cs => digitsValue? 16 cs
  | '0' :: 'o' :: cs => digitsValue? 8 cs
  | '0' :: 'b' :: cs => digitsValue? 2 cs
  | cs => if isZeroPadded cs then none else digitsValue? 10 cs

/-- The natural number that a text writes, with or without a plus sign. -/
def natural? : List Char → Option Nat
  | '+' :: '+' :: _ => none
  | '+' :: '-' :: _ => none
  | '+' :: cs => magnitude? cs
  | cs => magnitude? cs

/-- The number that a text with a minus sign writes, without the sign. -/
def negative? : List Char → Option Nat
  | '-' :: cs => magnitude? cs
  | _ => none

/-- The integer that a text writes, of at most 128 bits. -/
def integer? (cs : List Char) : Option Found :=
  match natural? cs, negative? cs with
  | some n, _ =>
    if n < UInt64.size then some (.integer n "")
    else if n < Nat.pow 2 128 then some (.integer n " as u128")
    else none
  | none, some n =>
    if n ≤ Nat.pow 2 63 then some (.integer (-n) "")
    else if n ≤ Nat.pow 2 127 then some (.integer (-n) " as i128")
    else none
  | none, none => none

/-! ## Other kinds -/

/-- Whether a text writes nothing. -/
def isNull (v : String) : Bool := ["~", "null", "Null", "NULL"].contains v

/-- The truth value that a text writes. -/
def bool? (v : String) : Option Bool :=
  if ["true", "True", "TRUE"].contains v then some true
  else if ["false", "False", "FALSE"].contains v then some false
  else none

/-- The number that a text writes; what is not finite starts with a point. -/
def double? (v : String) : Option Double :=
  let body := if v.toList.head? = some '+' then v.toList.drop 1 else v.toList
  if v.toList.head? = some '+' ∧ (body.head? = some '+' ∨ body.head? = some '-') then none
  else if [".inf", ".Inf", ".INF"].contains (String.ofList body) then some (.infinity false)
  else if ["-.inf", "-.Inf", "-.INF"].contains v then some (.infinity true)
  else if [".nan", ".NaN", ".NAN"].contains v then some .nan
  else (Double.ofString? (String.ofList body)).filter (·.isFinite)

/-- A number in a message. -/
def foundDouble (d : Double) : Found := .double (String.ofList (d.render .plain))

/-- What a plain text writes. -/
def foundPlain (v : String) : Found :=
  if v.isEmpty || isNull v then .empty "unit value"
  else
    match bool? v, integer? v.toList with
    | some b, _ => .bool b
    | none, some n => n
    | none, none =>
      if isZeroPadded v.toList then .string v
      else
        match double? v with
        | some d => foundDouble d
        | none => .string v

/-! ## Tags -/

/-- The standard tags. -/
def nullTag : String := "tag:yaml.org,2002:null"

@[inherit_doc nullTag] def boolTag : String := "tag:yaml.org,2002:bool"

@[inherit_doc nullTag] def intTag : String := "tag:yaml.org,2002:int"

@[inherit_doc nullTag] def floatTag : String := "tag:yaml.org,2002:float"

/-- A text of the kind that a tag asks for, or the mismatch with that kind. -/
def checked (v kind : String) : Option Found → Except Mismatch Found
  | some found => .ok found
  | none => .error (.wrongValue (.string v) (.tagged kind))

/-- What a scalar writes; a standard tag decides, and a tag of another kind only makes a string of
what is plain. -/
def found (s : Scalar) : Except Mismatch Found :=
  let v := s.value
  let tag := s.tag.getD ""
  if tag = boolTag then checked v "a boolean" ((bool? v).map .bool)
  else if tag = intTag then checked v "an integer" (integer? v.toList)
  else if tag = floatTag then checked v "a float" ((double? v).map foundDouble)
  else if tag = nullTag then
    checked v "null" (if isNull v then some (.empty "unit value") else none)
  else if s.style = .plain ∧ (s.tag.isNone ∨ tag.toList.head? = some '!') then .ok (foundPlain v)
  else .ok (.string v)

/-- What is reported of a scalar where something else was expected. -/
def mismatch (s : Scalar) (expected : Expected) : Mismatch :=
  match s.found with
  | .ok found => .wrongKind found expected
  | .error m => m

/-- The natural number of sixty-four bits that a scalar writes. It has to be plain, or a block of
kept lines with the tag of integers. -/
def word? (s : Scalar) : Option UInt64 := do
  if s.style = .plain ∨ s.style = .literal ∧ s.tag = some intTag then
    let n ← natural? s.value.toList
    if n < UInt64.size then some (UInt64.ofNat n) else none
  else none

end Scalar

end ReferenceDraws.Yaml
