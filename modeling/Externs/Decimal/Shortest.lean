import Externs.Decimal.Binary64

/-!
# The shortest decimal of a double

Among the decimals that read back as a given double, the one with the fewest
digits is written, and of several such the nearest.
-/

set_option autoImplicit false

namespace Externs.Decimal

/-- The value `digits · 10 ^ exponent`. -/
structure Scientific where
  digits : Nat
  exponent : Int
  deriving DecidableEq, Repr

/-- A positive double with the reals that round to it. All four numbers are
counted in one unit, the fraction of one over `denominator`. -/
structure Neighbourhood where
  lower : Nat
  value : Nat
  upper : Nat
  denominator : Nat
  /-- Whether the two ends round to the double as well. -/
  closed : Bool

namespace Neighbourhood

/-- Half a unit to both sides; a quarter below where the units get smaller. -/
def ofBinary64 (double : Binary64) : Neighbourhood :=
  let below :=
    if 2 * double.mantissa = Binary64.mantissaLimit ∧ Binary64.leastExponent < double.exponent
    then 1 else 2
  let (scale, denominator) := Binary64.shifted 1 1 (double.exponent - 2)
  { lower := (4 * double.mantissa - below) * scale
    value := 4 * double.mantissa * scale
    upper := (4 * double.mantissa + 2) * scale
    denominator
    closed := double.mantissa % 2 = 0 }

/-- More decimal places than the smallest double needs. -/
def places : Nat := 400

/-- The exponent of the first decimal digit of the value. -/
def leadingExponent (around : Neighbourhood) : Int :=
  (Nat.toDigits 10 (around.value * Nat.pow 10 places / around.denominator)).length - 1 - places

/-- The multiples of `10 ^ exponent` next to the value, if they lie in the
neighbourhood: the nearer one, and from a tie the even one. -/
def nearest? (around : Neighbourhood) (exponent : Int) : Option Nat :=
  let (unit, scale) : Nat × Nat :=
    match exponent with
    | .ofNat power => (Nat.pow 10 power * around.denominator, 1)
    | .negSucc power => (around.denominator, Nat.pow 10 (power + 1))
  let floor := around.value * scale / unit
  let inside (multiple : Nat) : Bool :=
    let place := multiple * unit
    if around.closed then around.lower * scale ≤ place && place ≤ around.upper * scale
    else around.lower * scale < place && place < around.upper * scale
  let nearer := roundedQuotient (around.value * scale) unit
  let other := if nearer = floor then floor + 1 else floor
  if inside nearer then some nearer
  else if inside other then some other
  else none

/-- Tries one digit more at a time. -/
def search (around : Neighbourhood) (leading : Int) : (count : Nat) → (digits : Nat) → Scientific
  | 0, digits => ⟨around.value * Nat.pow 10 places / around.denominator, leading - digits - places⟩
  | count + 1, digits =>
      let exponent := leading - digits
      match around.nearest? exponent with
      | some multiple => ⟨multiple, exponent⟩
      | none => search around leading count (digits + 1)

end Neighbourhood

/-- The most digits that a double can need. -/
def mostDigits : Nat := 17

/-- The shortest decimal that reads back as a positive double. -/
def shortest (double : Binary64) : Scientific :=
  let around := Neighbourhood.ofBinary64 double
  around.search around.leadingExponent mostDigits 0

/-- Drops the zeros at the end of a digit sequence. -/
def withoutTrailingZeros (digits : List Char) : List Char :=
  (digits.reverse.dropWhile (· == '0')).reverse

structure Style where
  /-- The least exponent of the first digit that is written without an exponent. -/
  leastPositional : Int
  /-- The greatest such exponent. -/
  greatestPositional : Int

/-- Positional from `0.00001` on and below `10 ^ 16`. -/
def Style.standard : Style := ⟨-5, 15⟩

/-- Text of a positive double whose first digit has the exponent `leading`. A
positional text always has a decimal point and a digit on both sides of it; any
other has an exponent with its sign. -/
def Style.layout (style : Style) (digits : List Char) (leading : Int) : List Char :=
  if style.leastPositional ≤ leading ∧ leading ≤ style.greatestPositional then
    match leading with
    | .ofNat power =>
        let whole := (digits ++ List.replicate (power + 1 - digits.length) '0').take (power + 1)
        let fraction := digits.drop (power + 1)
        whole ++ '.' :: (if fraction.isEmpty then ['0'] else fraction)
    | .negSucc zeros => '0' :: '.' :: (List.replicate zeros '0' ++ digits)
  else
    let fraction := digits.drop 1
    let sign := if leading < 0 then '-' else '+'
    digits.take 1 ++ (if fraction.isEmpty then [] else '.' :: fraction) ++
      'e' :: sign :: Nat.toDigits 10 leading.natAbs

/-- The text of a double with its sign, also that of zero. -/
def Style.text (style : Style) (negative : Bool) (double : Binary64) : String :=
  let sign := if negative then ['-'] else []
  if double.mantissa = 0 then String.ofList (sign ++ ['0', '.', '0'])
  else
    let decimal := shortest double
    let digits := Nat.toDigits 10 decimal.digits
    let leading := decimal.exponent + digits.length - 1
    String.ofList (sign ++ style.layout (withoutTrailingZeros digits) leading)

end Externs.Decimal
