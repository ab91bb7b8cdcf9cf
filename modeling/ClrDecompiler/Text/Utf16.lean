/-
This file converts between text and UTF-16 code units.
-/

namespace ClrDecompiler.Utf16

def encodeChar (c : Char) : List UInt16 :=
  let value := c.toNat
  if value < 0x10000 then [UInt16.ofNat value]
  else [UInt16.ofNat (0xD800 + (value - 0x10000) / 0x400),
    UInt16.ofNat (0xDC00 + (value - 0x10000) % 0x400)]

def encode (text : String) : List UInt16 :=
  text.toList.flatMap encodeChar

def isHighSurrogate (unit : UInt16) : Bool :=
  0xD800 ≤ unit && unit < 0xDC00

def isLowSurrogate (unit : UInt16) : Bool :=
  0xDC00 ≤ unit && unit < 0xE000

/-- Every surrogate without its partner becomes the replacement character. -/
def decode : List UInt16 → List Char
  | [] => []
  | [unit] =>
    if isHighSurrogate unit || isLowSurrogate unit then [Char.ofNat 0xFFFD]
    else [Char.ofNat unit.toNat]
  | first :: second :: rest =>
    if isHighSurrogate first then
      if isLowSurrogate second then
        Char.ofNat (0x10000 + (first.toNat - 0xD800) * 0x400 + (second.toNat - 0xDC00)) ::
          decode rest
      else Char.ofNat 0xFFFD :: decode (second :: rest)
    else if isLowSurrogate first then Char.ofNat 0xFFFD :: decode (second :: rest)
    else Char.ofNat first.toNat :: decode (second :: rest)

/-- The little-endian units of a byte string. A single byte at the end is no unit. -/
def units : List UInt8 → List UInt16
  | low :: high :: rest => UInt16.ofNat (low.toNat + high.toNat * 0x100) :: units rest
  | _ => []

end ClrDecompiler.Utf16
