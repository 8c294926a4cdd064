/-!
# Binary floating point formats

Floating point values reach the protocol as words: their sign, exponent and fraction fields side by
side.  Nothing here computes with them; they are only told apart, written as decimals and rounded
from exact quotients.  All of it is done on natural numbers, so no property of these values rests on
the arithmetic of a processor.

The magnitude words of a format are ordered like the numbers they stand for, and the word of
`mantissa * 2 ^ exponent` is `(exponent - least exponent) * 2 ^ (precision - 1) + mantissa`, for
subnormal and normal numbers alike.
-/

namespace DebugAgent.Ieee

/-- A binary interchange format: significant bits, the hidden one included, and exponent bits. -/
structure Format where
  precision : Nat
  exponentBits : Nat
  deriving DecidableEq, Repr

namespace Format

def single : Format := ⟨24, 8⟩

def double : Format := ⟨53, 11⟩

/-- Exponent of the unit in which the smallest numbers are counted. -/
def leastExponent (f : Format) : Int :=
  2 - (Nat.pow 2 (f.exponentBits - 1) : Nat) - (f.precision - 1 : Nat)

/-- Size of the fraction field. -/
def fractionRange (f : Format) : Nat := Nat.pow 2 (f.precision - 1)

/-- The magnitude word of infinity; the words above it are not numbers. -/
def infinity (f : Format) : Nat := (Nat.pow 2 f.exponentBits - 1) * f.fractionRange

/-- The place of the sign bit. -/
def signBit (f : Format) : Nat := Nat.pow 2 f.exponentBits * f.fractionRange

end Format

/-- What a word stands for. -/
inductive Number where
  | nan
  | infinite (negative : Bool)
  | finite (negative : Bool) (mantissa : Nat) (exponent : Int)
  deriving DecidableEq, Repr

/-- Reads a word of the format. -/
def Format.read (f : Format) (word : Nat) : Number :=
  let negative := f.signBit ≤ word
  let magnitude := word % f.signBit
  if f.infinity < magnitude then .nan
  else if magnitude = f.infinity then .infinite negative
  else
    let biased := magnitude / f.fractionRange
    let fraction := magnitude % f.fractionRange
    if biased = 0 then .finite negative fraction f.leastExponent
    else .finite negative (f.fractionRange + fraction) (f.leastExponent + (biased - 1 : Nat))

/-- The whole number nearest to `num / den`; of two equally near, the even one. -/
def roundHalfEven (num den : Nat) : Nat :=
  let below := num / den
  let excess := 2 * (num % den)
  if excess < den then below
  else if den < excess then below + 1
  else if below % 2 = 0 then below else below + 1

/-- The quotient `num / den` in units of `2 ^ unit`, as numerator and denominator. -/
def inUnits (num den : Nat) (unit : Int) : Nat × Nat :=
  (num * Nat.pow 2 (-unit).toNat, den * Nat.pow 2 unit.toNat)

/-- The exponent of the largest power of two that is not above `num / den`. -/
def floorLog2 (num den : Nat) : Int :=
  let guess : Int := num.log2 - den.log2
  let scaled := inUnits num den guess
  if scaled.2 ≤ scaled.1 then guess else guess - 1

/-- The magnitude word nearest to `num / den`, ties to even; quotients beyond the largest number
give infinity. -/
def Format.nearest (f : Format) (num den : Nat) : Nat :=
  if num = 0 then 0
  else
    let unit := max (floorLog2 num den - (f.precision - 1 : Nat)) f.leastExponent
    let scaled := inUnits num den unit
    let mantissa := roundHalfEven scaled.1 scaled.2
    min ((unit - f.leastExponent).toNat * f.fractionRange + mantissa) f.infinity

/-- Numerator and denominator of a finite magnitude. -/
def quotientOf (mantissa : Nat) (exponent : Int) : Nat × Nat :=
  (mantissa * Nat.pow 2 exponent.toNat, Nat.pow 2 (-exponent).toNat)

end DebugAgent.Ieee
