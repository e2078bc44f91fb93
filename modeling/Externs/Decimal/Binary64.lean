/-!
# Double-precision magnitudes

A finite double without its sign is a whole number of units `2 ^ exponent`. All
operations compute the exact value first and then round it once, to the nearest
double and from a tie to the even mantissa.
-/

set_option autoImplicit false

namespace Externs.Decimal

/-- A fraction rounded to a whole number, from a tie to the even one. -/
def roundedQuotient (numerator denominator : Nat) : Nat :=
  let floor := numerator / denominator
  let doubled := 2 * (numerator % denominator)
  if doubled < denominator then floor
  else if denominator < doubled then floor + 1
  else floor + floor % 2

/-- The value `mantissa · 2 ^ exponent`. -/
structure Binary64 where
  mantissa : Nat
  exponent : Int
  deriving DecidableEq, Repr

namespace Binary64

/-- The exponent of the smallest unit. -/
def leastExponent : Int := -1074

/-- The exponent of the largest unit. -/
def greatestExponent : Int := 971

/-- Mantissas have 53 binary digits. -/
def mantissaLimit : Nat := 9007199254740992

def zero : Binary64 := ⟨0, leastExponent⟩

/-- `numerator · 2 ^ shift` over `denominator`, as a fraction of whole numbers. -/
def shifted (numerator denominator : Nat) (shift : Int) : Nat × Nat :=
  match shift with
  | .ofNat places => (numerator <<< places, denominator)
  | .negSucc places => (numerator, denominator <<< (places + 1))

/-- The double nearest to a fraction with a positive denominator, none if it lies
beyond the largest one. The unit is the smallest that leaves the mantissa in its limit. -/
def ofFraction (numerator denominator : Nat) : Option Binary64 :=
  if numerator = 0 then some zero
  else
    let magnitude : Int := (Nat.log2 numerator : Int) - Nat.log2 denominator
    let guess :=
      if magnitude - 53 < leastExponent then leastExponent else magnitude - 53
    let (above, below) := shifted numerator denominator (-guess)
    let exponent := if above / below < mantissaLimit then guess else guess + 1
    let (above, below) := shifted numerator denominator (-exponent)
    let mantissa := roundedQuotient above below
    let rounded : Binary64 :=
      if mantissa < mantissaLimit then ⟨mantissa, exponent⟩ else ⟨mantissa / 2, exponent + 1⟩
    if rounded.exponent ≤ greatestExponent then some rounded else none

/-- The double nearest to a whole number that no double of 64 binary digits exceeds. -/
def ofNat (value : Nat) : Binary64 :=
  (ofFraction value 1).getD zero

/-- The rounded product, none on overflow. -/
def mul (left right : Binary64) : Option Binary64 :=
  let (above, below) :=
    shifted (left.mantissa * right.mantissa) 1 (left.exponent + right.exponent)
  ofFraction above below

/-- The rounded quotient by a positive double, zero on underflow. -/
def div (left right : Binary64) : Binary64 :=
  let (above, below) := shifted left.mantissa right.mantissa (left.exponent - right.exponent)
  (ofFraction above below).getD zero

/-- The largest power of ten that is used as a factor. -/
def greatestTens : Nat := 308

/-- The double nearest to a power of ten up to `greatestTens`. -/
def tens (power : Nat) : Binary64 :=
  ofNat (Nat.pow 10 power)

/-- Divides by `10 ^ power`, in steps of at most `greatestTens` decimal places. -/
def downBy (value : Binary64) (power : Nat) : Binary64 :=
  if power ≤ greatestTens then value.div (tens power)
  else if value.mantissa = 0 then value
  else downBy (value.div (tens greatestTens)) (power - greatestTens)
termination_by power
decreasing_by
  simp only [greatestTens] at *
  omega

/-- The double for `significand · 10 ^ exponent`: the significand is rounded, then
multiplied or divided by the rounded power of ten. None if that overflows. -/
def ofDecimal (significand : Nat) (exponent : Int) : Option Binary64 :=
  let value := ofNat significand
  match exponent with
  | .negSucc places => some (value.downBy (places + 1))
  | .ofNat power =>
      if power ≤ greatestTens then value.mul (tens power)
      else if significand = 0 then some value
      else none

end Binary64

end Externs.Decimal
