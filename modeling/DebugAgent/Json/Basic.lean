import DebugAgent.Ieee.Basic

/-!
# JSON values

Records travel as JSON.  A value keeps what reading a record depends on: the members of an object in
their order and with repetitions, the digits of a number, and whether a string denotes text at all
(an escape may name half of a surrogate pair).

Numbers without fraction and exponent are integers, except `-0`; they are integers of at most 64
bits, signed below zero.  All other numbers are floating point.
-/

namespace DebugAgent

/-- A number as its digits: sign, whole part, digits after the point, exponent. -/
structure Numeral where
  negative : Bool
  whole : Nat
  fraction : List Nat
  exponent : Option Int
  deriving DecidableEq, Repr

/-- A JSON value.  A string that denotes no text is `none`. -/
inductive Json where
  | null
  | bool (value : Bool)
  | number (value : Numeral)
  | string (text : Option String)
  | array (items : List Json)
  | object (members : List (Option String × Json))

instance : Inhabited Json := ⟨.null⟩

namespace Numeral

def ofInt (n : Int) : Numeral := ⟨n < 0, n.natAbs, [], none⟩

/-- The integer that a numeral denotes, if it denotes one of at most 64 bits. -/
def integer? (n : Numeral) : Option Int :=
  if n.fraction ≠ [] ∨ n.exponent ≠ none then none
  else if n.negative then
    if n.whole = 0 ∨ 0x8000000000000000 < n.whole then none else some (-(n.whole : Int))
  else if n.whole < 0x10000000000000000 then some n.whole
  else none

/-- Appends digits to a significand as long as it stays below `2 ^ 64`.  Returns it with the number
of digits appended and the digits left over. -/
def absorb (significand : Nat) : List Nat → Nat × Nat × List Nat
  | [] => (significand, 0, [])
  | d :: digits =>
      if significand * 10 + d < 0x10000000000000000 then
        let (total, count, rest) := absorb (significand * 10 + d) digits
        (total, count + 1, rest)
      else (significand, 0, d :: digits)

/-- A significand of 64 bits and a power of ten.  Digits that do not fit are dropped; dropped digits
of the whole part still count as places. -/
def scientific (n : Numeral) : Nat × Int :=
  let (whole, _, dropped) := absorb 0 ((Nat.toDigits 10 n.whole).map fun c => c.toNat - 48)
  let (significand, places, _) := absorb whole n.fraction
  (significand, (dropped.length : Int) - places + n.exponent.getD 0)

open Ieee in
/-- The double nearest to a power of ten.  It is a whole number like the power itself. -/
def roundedPower (power : Nat) : Nat :=
  match Format.double.read (Format.double.nearest (Nat.pow 10 power) 1) with
  | .finite _ mantissa exponent =>
      let quotient := quotientOf mantissa exponent
      quotient.1 / quotient.2
  | _ => 0

open Ieee in
/-- Scales the double with magnitude word `word` by a power of ten, in steps of at most 308.  The
power of ten of a step is rounded to a double, and so is its result.  Numbers beyond the largest
double are refused. -/
def scale (word : Nat) (power : Int) : Option Nat :=
  if word = 0 then some 0
  else
    let (num, den) :=
      match Format.double.read word with
      | .finite _ mantissa exponent => quotientOf mantissa exponent
      | _ => (0, 1)
    if power < -308 then
      let step := Format.double.nearest num (den * roundedPower 308)
      scale step (power + 308)
    else if power < 0 then
      some (Format.double.nearest num (den * roundedPower (-power).toNat))
    else if power ≤ 308 then
      let scaled := Format.double.nearest (num * roundedPower power.toNat) den
      if scaled = Format.double.infinity then none else some scaled
    else none
  termination_by (-power).toNat

/-- The magnitude word of the double that a numeral denotes: its significand, rounded, times its
power of ten, rounded.  `none` if it is too large. -/
def double? (n : Numeral) : Option Nat :=
  let (significand, power) := n.scientific
  scale (Ieee.Format.double.nearest significand 1) power

open Ieee in
/-- The word of the double that a numeral denotes. -/
def doubleWord? (n : Numeral) : Option Nat :=
  match n.integer? with
  | some value =>
      some ((if value < 0 then Format.double.signBit else 0) + Format.double.nearest value.natAbs 1)
  | none => n.double?.map fun word => (if n.negative then Format.double.signBit else 0) + word

open Ieee in
/-- The word of the single that a numeral denotes.  Integers are rounded once; other numbers are
rounded to a double first. -/
def single? (n : Numeral) : Option Nat :=
  match n.integer? with
  | some value =>
      some ((if value < 0 then Format.single.signBit else 0) + Format.single.nearest value.natAbs 1)
  | none =>
      n.double?.map fun word =>
        let magnitude :=
          match Format.double.read word with
          | .finite _ mantissa exponent =>
              let quotient := quotientOf mantissa exponent
              Format.single.nearest quotient.1 quotient.2
          | _ => Format.single.infinity
        (if n.negative then Format.single.signBit else 0) + magnitude

end Numeral

namespace Json

def ofInt (n : Int) : Json := .number (.ofInt n)

def ofNat (n : Nat) : Json := .ofInt n

def ofString (s : String) : Json := .string (some s)

/-- An object with the given members. -/
def record (members : List (String × Json)) : Json :=
  .object (members.map fun m => (some m.1, m.2))

/-- `none` is written as `null`. -/
def ofOption {α : Type} (write : α → Json) : Option α → Json
  | none => .null
  | some a => write a

end Json

end DebugAgent
