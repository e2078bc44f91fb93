import Externs.Json.Reader

/-!
# Numbers

Readers for numbers. A number is first read as it is written, and then given its
value: a whole number where it is written as one and 64 bits can hold it, and a
double otherwise.
-/

set_option autoImplicit false

namespace Externs.Json.Reader

/-! ## Written numbers -/

structure Numeral where
  negative : Bool
  whole : List Char
  fraction : Option (List Char)
  /-- Whether the exponent has a minus sign, and its digits. -/
  exponent : Option (Bool × List Char)

/-- Reads at least one digit. -/
def digits (atEnd : Problem) : Reader (List Char) := do
  match ← peek with
  | none => failNext atEnd
  | some c => if c.isDigit then takeWhile Char.isDigit else failNext .invalidNumber

/-- Reads the digits in front of the point. A zero stands alone. -/
def wholeDigits (atEnd : Problem) : Reader (List Char) := do
  match ← peek with
  | some '0' =>
      advance
      match ← peek with
      | none => return ['0']
      | some c => if c.isDigit then failNext .invalidNumber else return ['0']
  | _ => digits atEnd

/-- Reads the point and the digits after it, if there is a point. -/
def fractionDigits (atEnd : Problem) : Reader (Option (List Char)) := do
  match ← peek with
  | some '.' =>
      advance
      return some (← digits atEnd)
  | _ => return none

/-- Reads a sign, and tells whether it is a minus. -/
def sign : Reader Bool := do
  match ← peek with
  | some '+' =>
      advance
      return false
  | some '-' =>
      advance
      return true
  | _ => return false

def exponentDigits (atEnd : Problem) : Reader (Option (Bool × List Char)) := do
  match ← peek with
  | some c =>
      if c = 'e' ∨ c = 'E' then
        advance
        let down ← sign
        return some (down, ← digits atEnd)
      else return none
  | none => return none

/-- Reads a number that starts at the next character. Where the text ends inside
of it the problem is `atEnd`. -/
def numeral (atEnd : Problem) : Reader Numeral := do
  let negative ←
    match ← peek with
    | some '-' =>
        advance
        pure true
    | _ => pure false
  let whole ← wholeDigits atEnd
  let fraction ← fractionDigits atEnd
  let exponent ← exponentDigits atEnd
  return { negative, whole, fraction, exponent }

/-! ## Values of numbers -/

/-- Takes digits into a value as long as it does not pass `limit`, and gives the
digits that are left. -/
def accumulate (limit : Nat) : Nat → List Char → Nat × List Char
  | value, [] => (value, [])
  | value, digit :: more =>
      let next := 10 * value + (digit.toNat - '0'.toNat)
      if next ≤ limit then accumulate limit next more else (value, digit :: more)

/-- The largest significand that is kept exactly, of 64 binary digits. -/
def greatestSignificand : Nat := 18446744073709551615

/-- The largest exponent that is looked at, of 31 binary digits. -/
def greatestExponent : Nat := 2147483647

/-- The least negative whole number that is kept exactly, without its sign. -/
def greatestNegative : Nat := 9223372036854775808

/-- The digits that do not fit into the significand count as zeros in front of
the point, and are dropped after it. -/
def Numeral.decimal (numeral : Numeral) : Nat × Int :=
  let (significand, dropped) := accumulate greatestSignificand 0 numeral.whole
  match numeral.fraction with
  | none => (significand, dropped.length)
  | some fraction =>
      let (significand, left) := accumulate greatestSignificand significand fraction
      (significand, dropped.length - (fraction.length - left.length))

/-- A whole number, if it is written as one and can be kept exactly. The sign of
`-0` would be lost, so it is none. -/
def Numeral.integer? (numeral : Numeral) : Option Int :=
  match numeral.fraction, numeral.exponent, accumulate greatestSignificand 0 numeral.whole with
  | none, none, (value, []) =>
      if !numeral.negative then some value
      else if value = 0 ∨ greatestNegative < value then none
      else some (-value)
  | _, _, _ => none

/-- The value of a number that was read just now. -/
def Numeral.value (numeral : Numeral) : Reader Number :=
  match numeral.integer? with
  | some value => return .integer value
  | none => do
      let (significand, places) := numeral.decimal
      let real (exponent : Int) : Reader Number :=
        match Decimal.Binary64.ofDecimal significand exponent with
        | some magnitude => return .real numeral.negative magnitude
        | none => failHere .numberOutOfRange
      match numeral.exponent with
      | none => real places
      | some (down, digits) =>
          match accumulate greatestExponent 0 digits with
          | (exponent, []) => real (if down then places - exponent else places + exponent)
          | (_, beyond) =>
              if significand = 0 ∨ down then return .real numeral.negative .zero
              else fun rest =>
                .error ⟨.numberOutOfRange, some (Text.size rest + (beyond.length - 1))⟩ rest

/-- Reads a number that starts at the next character. -/
def number : Reader Number := do
  (← numeral .endInValue).value

/-- Passes over a number, of any size. -/
def skipNumber : Reader Unit := do
  let _ ← numeral .invalidNumber

end Externs.Json.Reader
