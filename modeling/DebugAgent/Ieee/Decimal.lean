import DebugAgent.Ieee.Basic

/-!
# Shortest decimals

A floating point number is written with the fewest digits that still read back as the same number
and, among those, with the digits nearest to it.  The numbers that read back as a given one form an
interval around it; the search looks at ever finer decimal grids until one of the two grid points
next to the number lies in the interval.

The text is positional whatever the size of the number, and whole numbers have no point.
-/

namespace DebugAgent.Ieee

/-- A positive number and the interval of the reals that round to it, over one common denominator.
-/
structure Interval where
  low : Nat
  value : Nat
  high : Nat
  denominator : Nat
  /-- The ends belong to the interval. -/
  closed : Bool
  deriving DecidableEq, Repr

/-- The interval of a positive finite number.  Below a power of two the neighbour is nearer, so the
interval is narrower on that side; the ends round to the number exactly if its mantissa is even. -/
def Format.interval (f : Format) (mantissa : Nat) (exponent : Int) : Interval :=
  let narrow := mantissa = f.fractionRange ∧ f.leastExponent < exponent
  let unit := exponent - 2
  let scale := Nat.pow 2 unit.toNat
  { low := (4 * mantissa - if narrow then 1 else 2) * scale
    value := 4 * mantissa * scale
    high := (4 * mantissa + 2) * scale
    denominator := Nat.pow 2 (-unit).toNat
    closed := mantissa % 2 = 0 }

namespace Interval

/-- The grid point `count * 10 ^ place` lies in the interval. -/
def contains (i : Interval) (count : Nat) (place : Int) : Bool :=
  let point := count * Nat.pow 10 place.toNat * i.denominator
  let scale := Nat.pow 10 (-place).toNat
  if i.closed then i.low * scale ≤ point && point ≤ i.high * scale
  else i.low * scale < point && point < i.high * scale

/-- The grid point of `10 ^ place` to write for the number, if one lies in the interval: of the two
next to the number the nearer one, and the upper one of two equally near. -/
def gridPoint? (i : Interval) (place : Int) : Option Nat :=
  let num := i.value * Nat.pow 10 (-place).toNat
  let den := i.denominator * Nat.pow 10 place.toNat
  let below := num / den
  match i.contains below place, i.contains (below + 1) place with
  | false, false => none
  | true, false => some below
  | false, true => some (below + 1)
  | true, true => if 2 * (num % den) < den then some below else some (below + 1)

/-- Searches the grids from `place` down, each ten times finer than the one before. -/
def search (i : Interval) (place : Int) : Nat → Nat × Int
  | 0 => (i.value * Nat.pow 10 (-place).toNat / (i.denominator * Nat.pow 10 place.toNat), place)
  | steps + 1 =>
      match i.gridPoint? place with
      | some count => (count, place)
      | none => i.search (place - 1) steps

/-- A power of ten that is not below the number, as its exponent. -/
def topPlace (i : Interval) : Int :=
  if i.denominator ≤ i.value then (Nat.toDigits 10 (i.value / i.denominator)).length
  else 1 - ((Nat.toDigits 10 (i.denominator / i.value)).length : Int)

end Interval

/-- The digits of the shortest decimal of a positive finite number and the place of its last digit.
No number needs more decimal digits than it has binary ones. -/
def Format.shortest (f : Format) (mantissa : Nat) (exponent : Int) : Nat × Int :=
  let i := f.interval mantissa exponent
  i.search i.topPlace f.precision

/-- A decimal in positional notation. -/
def positional (digits : Nat) (place : Int) : List Char :=
  let text := Nat.toDigits 10 digits
  if 0 ≤ place then text ++ List.replicate place.toNat '0'
  else
    let places := (-place).toNat
    let padded := List.replicate (places + 1 - text.length) '0' ++ text
    padded.take (padded.length - places) ++ '.' :: padded.drop (padded.length - places)

/-- The text of a number.  Zero keeps its sign. -/
def Format.text (f : Format) (word : Nat) : String :=
  match f.read word with
  | .nan => "NaN"
  | .infinite negative => if negative then "-inf" else "inf"
  | .finite negative mantissa exponent =>
      let digits :=
        if mantissa = 0 then ['0']
        else
          let decimal := f.shortest mantissa exponent
          positional decimal.1 decimal.2
      String.ofList (if negative then '-' :: digits else digits)

end DebugAgent.Ieee
