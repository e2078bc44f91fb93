import Externs.Json.Basic

/-!
# JSON text

Writing a value: two spaces for each level, every item and member on a line of
its own, and empty brackets closed at once.
-/

set_option autoImplicit false

namespace Externs.Json

/-- A hexadecimal digit, in lower case. -/
def hexDigit (value : Nat) : Char :=
  Nat.digitChar value

/-- A character as it stands in a string. Only the quote, the backslash and the
control characters of ASCII are escaped. -/
def escapedChar (c : Char) : List Char :=
  if c = '"' then ['\\', '"']
  else if c = '\\' then ['\\', '\\']
  else if c = '\x08' then ['\\', 'b']
  else if c = '\t' then ['\\', 't']
  else if c = '\n' then ['\\', 'n']
  else if c = '\x0c' then ['\\', 'f']
  else if c = '\r' then ['\\', 'r']
  else if c.toNat < 0x20 then
    ['\\', 'u', '0', '0', hexDigit (c.toNat / 16), hexDigit (c.toNat % 16)]
  else [c]

def stringText (text : String) : List Char :=
  '"' :: text.toList.flatMap escapedChar ++ ['"']

def Scalar.text : Scalar → List Char
  | .null => "null".toList
  | .boolean true => "true".toList
  | .boolean false => "false".toList
  | .number value => value.text.toList
  | .string value => stringText value

/-- A line break and the indentation of the line after it. -/
def newline (depth : Nat) : List Char :=
  '\n' :: List.replicate (2 * depth) ' '

mutual

/-- The text of a value whose first line starts at the given depth. -/
def layout (depth : Nat) : Json → List Char
  | .scalar value => value.text
  | .list [] => ['[', ']']
  | .list (item :: rest) =>
      '[' :: newline (depth + 1) ++ layout (depth + 1) item ++
        (layoutItems (depth + 1) rest ++ newline depth ++ [']'])
  | .object [] => ['\x7b', '\x7d']
  | .object ((name, value) :: rest) =>
      '\x7b' :: newline (depth + 1) ++ stringText name ++ [':', ' '] ++
        (layout (depth + 1) value ++ (layoutMembers (depth + 1) rest ++ newline depth ++ ['\x7d']))

/-- The items after the first one. -/
def layoutItems (depth : Nat) : List Json → List Char
  | [] => []
  | item :: rest => ',' :: newline depth ++ (layout depth item ++ layoutItems depth rest)

/-- The members after the first one. -/
def layoutMembers (depth : Nat) : List (String × Json) → List Char
  | [] => []
  | (name, value) :: rest =>
      ',' :: newline depth ++ stringText name ++ [':', ' '] ++
        (layout depth value ++ layoutMembers depth rest)

end

/-- The text of a value, without a line break at its end. -/
def pretty (value : Json) : String :=
  String.ofList (layout 0 value)

end Externs.Json
