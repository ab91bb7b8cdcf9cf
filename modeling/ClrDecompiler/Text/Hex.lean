/-
This file writes numbers and byte strings in hexadecimal.
-/

namespace ClrDecompiler.Hex

/-- The digits of a number, with zeros in front up to the least width. -/
def digits (width value : Nat) : List Char :=
  let significant := Nat.toDigits 16 value
  List.replicate (width - significant.length) '0' ++ significant

def lower (width value : Nat) : String :=
  String.ofList (digits width value)

def upper (width value : Nat) : String :=
  String.ofList ((digits width value).map Char.toUpper)

/-- Two lower-case digits for every byte. -/
def ofBytes (data : Array UInt8) : String :=
  data.foldl (fun text byte => text ++ lower 2 byte.toNat) ""

end ClrDecompiler.Hex
