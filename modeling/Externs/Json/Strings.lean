import Externs.Json.Reader

/-!
# Strings

Readers for strings. A string that is kept is decoded; one that is passed over
only has to be well formed.
-/

set_option autoImplicit false

namespace Externs.Json.Reader

/-! ## Escapes -/

def hexDigit? (c : Char) : Option Nat :=
  if c.isDigit then some (c.toNat - '0'.toNat)
  else if 'a' ≤ c ∧ c ≤ 'f' then some (c.toNat - 'a'.toNat + 10)
  else if 'A' ≤ c ∧ c ≤ 'F' then some (c.toNat - 'A'.toNat + 10)
  else none

/-- The value of a sequence of hexadecimal digits. -/
def hexValue? (digits : List Char) : Option Nat :=
  digits.foldlM (fun value c => (hexDigit? c).map (16 * value + ·)) 0

/-- Reads the four digits of an escaped code unit. They are taken as four bytes,
whatever characters these belong to. -/
def codeUnit : Reader Nat := fun rest =>
  let left := Text.size rest
  if left < 4 then .error ⟨.endInString, some 0⟩ []
  else
    match hexValue? (rest.take 4) with
    | some value => .ok value (rest.drop 4)
    | none => .error ⟨.invalidEscape, some (left - 4)⟩ rest

/-- The first halves of surrogate pairs. -/
def isLeading (unit : Nat) : Bool := 0xD800 ≤ unit && unit ≤ 0xDBFF

/-- The second halves of surrogate pairs. -/
def isTrailing (unit : Nat) : Bool := 0xDC00 ≤ unit && unit ≤ 0xDFFF

/-- Reads one character that the second half of a surrogate pair has to start with. -/
def pairMark (mark : Char) : Reader Unit := do
  match ← peek with
  | none => failHere .endInString
  | some c => if c = mark then advance else failNext .unfinishedPair

/-- Reads the code of an escaped character, which may be a surrogate pair. -/
def codePoint : Reader Char := do
  let unit ← codeUnit
  if isTrailing unit then failHere .loneSurrogate
  else if isLeading unit then
    pairMark '\\'
    pairMark 'u'
    let second ← codeUnit
    if isTrailing second then
      return Char.ofNat (0x10000 + (unit - 0xD800) * 0x400 + (second - 0xDC00))
    else failHere .loneSurrogate
  else return Char.ofNat unit

/-- The character that a backslash and a letter stand for. -/
def shortEscape? (letter : Char) : Option Char :=
  if letter = '"' ∨ letter = '\\' ∨ letter = '/' then some letter
  else if letter = 'b' then some '\x08'
  else if letter = 'f' then some '\x0c'
  else if letter = 'n' then some '\n'
  else if letter = 'r' then some '\r'
  else if letter = 't' then some '\t'
  else none

/-- Reads an escape after its backslash, with the code after `\u` read by `code`. -/
def escapeWith (code : Reader (List Char)) : Reader (List Char) := do
  match ← peek with
  | none => failHere .endInString
  | some letter =>
      if letter = 'u' then
        advance
        code
      else
        match shortEscape? letter with
        | some c =>
            advance
            return [c]
        | none => failNext .invalidEscape

/-! ## Whole strings -/

/-- The characters of a string that stand for themselves. -/
def isPlain (c : Char) : Bool :=
  c != '"' && c != '\\' && 0x20 ≤ c.toNat

/-- Reads a run of plain characters and the quote or escape that ends it. A
control character is left to `control`. -/
def stringPart (code : Reader (List Char)) (control : Reader Unit) (text : List Char) :
    Reader (ForInStep (List Char)) := do
  let run ← takeWhile isPlain
  match ← peek with
  | none => failHere .endInString
  | some c =>
      if c = '"' then
        advance
        return .done (text ++ run)
      else if c = '\\' then
        advance
        let escaped ← escapeWith code
        return .yield (text ++ run ++ escaped)
      else
        control
        failHere .controlCharacter

/-- Reads a string after its opening quote. -/
def stringTail : Reader String := do
  let text ← iterate (stringPart (do return [← codePoint]) advance) []
  return String.ofList text

/-- Passes over a string after its opening quote. An escaped code only has to
have four digits, and a control character is reported where it stands. -/
def skipStringTail : Reader Unit := do
  let _ ← iterate (stringPart (do let _ ← codeUnit; return []) (return ())) []

end Externs.Json.Reader
