import Externs.Json.Numbers
import Externs.Json.Strings

/-!
# Values without parts

Readers for words, strings and numbers, by the character that they start with.
-/

set_option autoImplicit false

namespace Externs.Json.Reader

/-! ## Words -/

def word : List Char → Reader Unit
  | [] => return ()
  | letter :: letters => do
      match ← peek with
      | none => failHere .endInValue
      | some c =>
          if c = letter then
            advance
            word letters
          else failNext .expectedWord

/-! ## Values without parts -/

def startsNumber (c : Char) : Bool :=
  c == '-' || c.isDigit

/-- The readers for strings and numbers, which differ between values that are
kept and values that are passed over. -/
structure Lexemes (α : Type) where
  constant : Scalar → α
  string : Reader α
  number : Reader α

/-- The reader for a value without parts that starts with `c`. -/
def Lexemes.startingWith? {α : Type} (lexemes : Lexemes α) (c : Char) : Option (Reader α) :=
  if c = 'n' then some do
    advance
    word ['u', 'l', 'l']
    return lexemes.constant .null
  else if c = 't' then some do
    advance
    word ['r', 'u', 'e']
    return lexemes.constant (.boolean true)
  else if c = 'f' then some do
    advance
    word ['a', 'l', 's', 'e']
    return lexemes.constant (.boolean false)
  else if c = '"' then some do
    advance
    lexemes.string
  else if startsNumber c then some lexemes.number
  else none

def kept : Lexemes Scalar where
  constant := id
  string := return .string (← stringTail)
  number := return .number (← number)

def passed : Lexemes Unit where
  constant _ := ()
  string := skipStringTail
  number := skipNumber

end Externs.Json.Reader
