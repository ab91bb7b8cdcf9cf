/-
This file writes a binary floating-point number with the fewest decimal digits that read
back to it, in positional notation.
-/

import ClrDecompiler.Decimal.Binary

namespace ClrDecompiler.Decimal

/-- A positive value and the bounds of the reals that round to it, all over one
denominator. The bounds themselves round to the value if the interval is closed. -/
structure Interval where
  low : Nat
  value : Nat
  high : Nat
  denominator : Nat
  closed : Bool

/-- The lower neighbour of a power of two is half as far away as the upper one. -/
def intervalOf (format : BinaryFormat) (mantissa : Nat) (exponent : Int) : Interval :=
  let below := if mantissa = 1 <<< format.fractionBits then 1 else 2
  let scale := exponent - 2
  let unit := 1 <<< scale.toNat
  { low := (4 * mantissa - below) * unit
    value := 4 * mantissa * unit
    high := (4 * mantissa + 2) * unit
    denominator := 1 <<< (-scale).toNat
    closed := mantissa % 2 = 0 }

/-- Whether `count * 10 ^ power` lies in the interval. -/
def Interval.holds (interval : Interval) (count : Nat) (power : Int) : Bool :=
  let point := count * Nat.pow 10 power.toNat * interval.denominator
  let scale := Nat.pow 10 (-power).toNat
  if interval.closed then
    interval.low * scale ≤ point && point ≤ interval.high * scale
  else
    interval.low * scale < point && point < interval.high * scale

def digitCount (value : Nat) : Nat :=
  (Nat.toDigits 10 value).length

/-- The least power of ten above a positive value. -/
def Interval.magnitude (interval : Interval) : Int :=
  if interval.denominator ≤ interval.value then
    digitCount (interval.value / interval.denominator)
  else
    1 - (digitCount ((interval.denominator - 1) / interval.value) : Int)

/-- The point of the grid of multiples of `10 ^ power` that is in the interval and nearest
to the value. Of two points equally near the upper one is taken. -/
def Interval.nearest? (interval : Interval) (power : Int) : Option Nat :=
  let numerator := interval.value * Nat.pow 10 (-power).toNat
  let denominator := interval.denominator * Nat.pow 10 power.toNat
  let below := numerator / denominator
  let remainder := numerator % denominator
  match interval.holds below power, interval.holds (below + 1) power with
  | true, true => some (if 2 * remainder < denominator then below else below + 1)
  | true, false => some below
  | false, true => some (below + 1)
  | false, false => none

/-- Seventeen digits always tell two doubles apart. -/
def Interval.shortest (interval : Interval) : Nat × Int :=
  let grids := (List.range 17).map fun index : Nat => interval.magnitude - 1 - index
  match grids.findSome? fun power => (interval.nearest? power).map (·, power) with
  | some found => found
  | none => (interval.value / interval.denominator, 0)

/-- The digits of `count * 10 ^ power` without an exponent. -/
def positional (count : Nat) (power : Int) : String :=
  let digits := Nat.toDigits 10 count
  if 0 ≤ power then
    String.ofList (digits ++ List.replicate power.toNat '0')
  else
    let places := (-power).toNat
    let padded := List.replicate (places + 1 - digits.length) '0' ++ digits
    let whole := padded.take (padded.length - places)
    let fraction := (padded.drop (padded.length - places)).reverse.dropWhile (· == '0')
    if fraction.isEmpty then String.ofList whole
    else String.ofList (whole ++ '.' :: fraction.reverse)

def signed (negative : Bool) (text : String) : String :=
  if negative then "-" ++ text else text

/-- The text of a bit pattern. -/
def text (format : BinaryFormat) (bits : Nat) : String :=
  match format.decode bits with
  | .nan => "NaN"
  | .infinite negative => signed negative "inf"
  | .finite negative 0 _ => signed negative "0"
  | .finite negative mantissa exponent =>
    let (count, power) := (intervalOf format mantissa exponent).shortest
    signed negative (positional count power)

end ClrDecompiler.Decimal
