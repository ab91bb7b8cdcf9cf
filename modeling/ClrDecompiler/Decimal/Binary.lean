/-
This file reads the bit patterns of binary floating-point numbers as exact values.
-/

namespace ClrDecompiler.Decimal

/-- A binary interchange format: one sign bit, then the exponent and the fraction. -/
structure BinaryFormat where
  exponentBits : Nat
  fractionBits : Nat

def single : BinaryFormat := ⟨8, 23⟩

def double : BinaryFormat := ⟨11, 52⟩

/-- The value of a bit pattern. A finite number is `mantissa * 2 ^ exponent` with its sign. -/
inductive Binary where
  | nan
  | infinite (negative : Bool)
  | finite (negative : Bool) (mantissa : Nat) (exponent : Int)
  deriving DecidableEq, Repr

def BinaryFormat.decode (format : BinaryFormat) (bits : Nat) : Binary :=
  let fraction := bits % (1 <<< format.fractionBits)
  let exponent := (bits >>> format.fractionBits) % (1 <<< format.exponentBits)
  let negative := (bits >>> (format.fractionBits + format.exponentBits)) % 2 == 1
  let bias : Int := (1 <<< (format.exponentBits - 1) : Nat) - 1 + format.fractionBits
  if exponent = 1 <<< format.exponentBits - 1 then
    if fraction = 0 then .infinite negative else .nan
  else if exponent = 0 then .finite negative fraction (1 - bias)
  else .finite negative (1 <<< format.fractionBits + fraction) (exponent - bias)

/-- The whole number that a finite value is, if it is one. -/
def Binary.whole? : Binary → Option Nat
  | .finite _ mantissa exponent =>
    let unit := 1 <<< (-exponent).toNat
    if 0 ≤ exponent then some (mantissa <<< exponent.toNat)
    else if mantissa % unit = 0 then some (mantissa / unit)
    else none
  | _ => none

end ClrDecompiler.Decimal
