/-
This file writes constants as assembly listings do.
-/

import ClrDecompiler.Source.Literal

namespace ClrDecompiler.Listing

open Source

/-- A value after the name of its type. -/
def typed (type value : String) : String :=
  type ++ "(" ++ value ++ ")"

def signedType (elementType : UInt8) : String :=
  match elementType.toNat with
  | 0x04 => "int8"
  | 0x06 => "int16"
  | 0x0A => "int64"
  | _ => "int32"

def unsignedType (elementType : UInt8) : String :=
  match elementType.toNat with
  | 0x05 => "uint8"
  | 0x07 => "uint16"
  | 0x0B => "uint64"
  | _ => "uint32"

/-- Strings are quoted in the same way as in C#. -/
def constant : ConstantValue → String
  | .boolean value => typed "bool" (toString value)
  | .char unit => typed "char" ("0x" ++ Hex.lower 4 unit.toNat)
  | .signed value elementType => typed (signedType elementType) (toString value)
  | .unsigned value elementType => typed (unsignedType elementType) (toString value)
  | .float32 bits => typed "float32" (Decimal.text Decimal.single bits.toNat)
  | .float64 bits => typed "float64" (Decimal.text Decimal.double bits.toNat)
  | .string text => stringLiteral text
  | .null => "nullref"

end ClrDecompiler.Listing
