import ReferenceDraws.Failure

/-!
# Parameter names

A parameter is a whole variable, `theta`, or one element of a vector variable, `theta[3]`, with
an index that counts from one. The text of a name determines it:

* `resolve`: reads a name from its text;
* `display`: the text of a name.
-/

namespace ReferenceDraws

/-- A variable, or one element of it. -/
structure ParameterName where
  /-- The variable. -/
  base : String
  /-- The element, counted from one. -/
  index : Option UInt64
  /-- Elements count from one. -/
  index_ne_zero : index ≠ some 0
deriving DecidableEq

namespace ParameterName

/-- Why a text is no parameter name. -/
inductive Flaw where
  | strayClosing
  | noTrailingBracket
  | emptyIndex
  | indexNotNumeric (index : String)
  | leadingZeros (index : String)
  | indexTooLarge (index : String)
  | emptyBase
  | bracketInBase
  | zeroIndex
deriving DecidableEq

/-- A text that is no parameter name, and why. -/
structure Malformed where
  /-- The text. -/
  name : String
  /-- Its first flaw. -/
  flaw : Flaw
deriving DecidableEq

/-- What a flaw is called. -/
def Flaw.message : Flaw → String
  | .strayClosing => "closing bracket without opening bracket"
  | .noTrailingBracket => "index must be a single trailing bracket"
  | .emptyIndex => "empty index"
  | .indexNotNumeric _ => "index must be a single non-negative integer"
  | .leadingZeros _ => "index has leading zeros"
  | .indexTooLarge _ => "number too large to fit in target type"
  | .emptyBase => "empty variable name"
  | .bracketInBase => "variable name contains brackets"
  | .zeroIndex => "indices are 1-based"

/-- The text between the brackets, if it is at fault. -/
def Flaw.index? : Flaw → Option String
  | .indexNotNumeric index | .leadingZeros index | .indexTooLarge index => some index
  | _ => none

/-- The failure of a malformed name. -/
def Malformed.failure (m : Malformed) : Failure :=
  let index := match m.flaw.index? with
    | some index => [("index", index)]
    | none => []
  ⟨.malformedParameterName,
    .of "pdbref_draws.malformed_name" m.flaw.message (("name", m.name) :: index)⟩

/-! ## Text -/

/-- Whether a character is a bracket. -/
def isBracket (c : Char) : Bool := c = '[' || c = ']'

/-- The decimal digits of a number. -/
def decimal (n : Nat) : List Char := Nat.toDigits 10 n

/-- The text of a variable with an index. -/
def indexedText (base : String) (index : UInt64) : String :=
  String.ofList (base.toList ++ '[' :: decimal index.toNat ++ [']'])

/-- The text of a name. -/
def display (p : ParameterName) : String :=
  match p.index with
  | some index => indexedText p.base index
  | none => p.base

/-- The element counted from zero. -/
def column (p : ParameterName) : Option UInt64 := p.index.map (· - 1)

/-! ## Construction -/

/-- Checks the name of a variable, on behalf of a text. -/
def checkBase (base text : String) : Except Malformed Unit :=
  if base.isEmpty then .error ⟨text, .emptyBase⟩
  else if base.toList.any isBracket then .error ⟨text, .bracketInBase⟩
  else .ok ()

/-- A whole variable. -/
def scalar (base : String) : Except Malformed ParameterName := do
  checkBase base base
  pure ⟨base, none, by simp⟩

/-- An element of a variable, for a text. -/
def element (base text : String) (index : UInt64) : Except Malformed ParameterName := do
  checkBase base text
  if h : index = 0 then throw ⟨text, .zeroIndex⟩
  else pure ⟨base, some index, by simpa using h⟩

/-- An element of a variable. -/
def indexed (base : String) (index : UInt64) : Except Malformed ParameterName :=
  element base (indexedText base index) index

/-- An index from the characters between the brackets: canonical decimal digits of a word. -/
def indexOf (text : String) (inner : List Char) : Except Malformed UInt64 :=
  let found := String.ofList inner
  if inner = [] then .error ⟨text, .emptyIndex⟩
  else if !inner.all Char.isDigit then .error ⟨text, .indexNotNumeric found⟩
  else if 1 < inner.length ∧ inner.head? = some '0' then .error ⟨text, .leadingZeros found⟩
  else
    let n := digitsToNat inner
    if n < UInt64.size then .ok (UInt64.ofNat n) else .error ⟨text, .indexTooLarge found⟩

/-- The characters before a final closing bracket. -/
def beforeClosing? (cs : List Char) : Option (List Char) :=
  if cs.getLast? = some ']' then some cs.dropLast else none

/-- Reads a name from its text. -/
def resolve (text : String) : Except Malformed ParameterName :=
  let cs := text.toList
  let base := cs.takeWhile (· ≠ '[')
  match cs.dropWhile (· ≠ '[') with
  | [] => if cs.contains ']' then .error ⟨text, .strayClosing⟩ else scalar text
  | _ :: rest =>
    match beforeClosing? rest with
    | none => .error ⟨text, .noTrailingBracket⟩
    | some inner => do
      let index ← indexOf text inner
      element (String.ofList base) text index

/-! ## Order -/

/-- Names in order of their variables, then a whole variable before its elements, then
elements by index. -/
def le (a b : ParameterName) : Bool :=
  a.base < b.base ||
    (a.base = b.base &&
      match a.index, b.index with
      | none, _ => true
      | some _, none => false
      | some i, some j => i ≤ j)

/-- Sorts names. -/
def sort (names : List ParameterName) : List ParameterName := names.mergeSort le

end ParameterName

end ReferenceDraws
