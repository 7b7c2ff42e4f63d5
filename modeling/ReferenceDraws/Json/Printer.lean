import ReferenceDraws.Json.Basic

/-!
# JSON text

Two layouts of a value: compact, without any blank, and indented by two spaces a level.
Strings escape quotes, backslashes and controls and leave all else as it is.
-/

namespace ReferenceDraws.Json

/-- A number stands with its point in place from `1e-5` up to, not including, `1e16`. -/
def numberStyle : Double.Style := ⟨fun e => -5 ≤ e && e < 16⟩

/-- The text of a number; a double always shows a point or an exponent. -/
def Number.render : Number → List Char
  | .nat n => Nat.toDigits 10 n.toNat
  | .negative n => '-' :: Nat.toDigits 10 n.toNat
  | .double d => Double.render numberStyle d

/-- A hexadecimal digit in lower case. -/
def hexDigit (n : Nat) : Char := Nat.digitChar (n % 16)

/-- A character inside a string. -/
def escapedChar (c : Char) : List Char :=
  if c = '"' then ['\\', '"']
  else if c = '\\' then ['\\', '\\']
  else if c.toNat < 0x20 then
    if c = '\x08' then ['\\', 'b']
    else if c = '\t' then ['\\', 't']
    else if c = '\n' then ['\\', 'n']
    else if c = '\x0c' then ['\\', 'f']
    else if c = '\r' then ['\\', 'r']
    else ['\\', 'u', '0', '0', hexDigit (c.toNat / 16), hexDigit c.toNat]
  else [c]

/-- A string between its quotes. -/
def renderString (s : String) : List Char := '"' :: s.toList.flatMap escapedChar ++ ['"']

/-- The texts of a list with a separator between neighbours. -/
def separated (separator : List Char) : List (List Char) → List Char
  | [] => []
  | [text] => text
  | text :: rest => text ++ separator ++ separated separator rest

/-- How the parts of a container are laid out at a depth. -/
structure Layout where
  /-- What stands between the opening bracket and the first part. -/
  opening : Nat → List Char
  /-- What stands between two parts. -/
  between : Nat → List Char
  /-- What stands before the closing bracket. -/
  closing : Nat → List Char
  /-- What stands between a key and its value. -/
  colon : List Char

/-- A line break and the indentation of a depth. -/
def newline (depth : Nat) : List Char := '\n' :: List.replicate (2 * depth) ' '

/-- No blanks at all. -/
def Layout.compact : Layout := ⟨fun _ => [], fun _ => [','], fun _ => [], [':']⟩

/-- One part a line, indented by two spaces a level. -/
def Layout.indented : Layout :=
  ⟨fun depth => newline (depth + 1), fun depth => ',' :: newline (depth + 1), newline, [':', ' ']⟩

/-- The parts of a container between brackets; an empty container has nothing inside. -/
def Layout.bracketed (layout : Layout) (depth : Nat) (left right : Char)
    (parts : List (List Char)) : List Char :=
  match parts with
  | [] => [left, right]
  | _ => left :: layout.opening depth ++ separated (layout.between depth) parts ++
      layout.closing depth ++ [right]

mutual

/-- The text of a value at a depth. -/
def renderAt (layout : Layout) (depth : Nat) : Json → List Char
  | .null => ['n', 'u', 'l', 'l']
  | .bool true => ['t', 'r', 'u', 'e']
  | .bool false => ['f', 'a', 'l', 's', 'e']
  | .number n => n.render
  | .string s => renderString s
  | .array items => layout.bracketed depth '[' ']' (renderItems layout (depth + 1) items)
  | .object members => layout.bracketed depth '{' '}' (renderMembers layout (depth + 1) members)

/-- The texts of the items of an array. -/
def renderItems (layout : Layout) (depth : Nat) : List Json → List (List Char)
  | [] => []
  | item :: rest => renderAt layout depth item :: renderItems layout depth rest

/-- The texts of the members of an object. -/
def renderMembers (layout : Layout) (depth : Nat) : List (String × Json) → List (List Char)
  | [] => []
  | (key, value) :: rest =>
    (renderString key ++ layout.colon ++ renderAt layout depth value) ::
      renderMembers layout depth rest

end

/-- The text of a value without blanks. -/
def compact (value : Json) : String := String.ofList (renderAt .compact 0 value)

/-- The text of a value, one part a line. -/
def pretty (value : Json) : String := String.ofList (renderAt .indented 0 value)

end ReferenceDraws.Json
