/-
This file writes integers in the compressed form of the metadata blobs: one, two or four
bytes, most significant first, with the width in the high bits of the first byte.
-/

import ClrDecompiler.Bytes.Basic
import ClrDecompiler.Fault

namespace ClrDecompiler.Compressed

/-- Numbers of up to 29 bits have a compressed form. -/
def encodeUnsigned (value : Nat) : Except Fault (List UInt8) :=
  if value < 0x80 then
    .ok [UInt8.ofNat value]
  else if value < 0x4000 then
    .ok [UInt8.ofNat (0x80 + value / 0x100), UInt8.ofNat (value % 0x100)]
  else if value < 0x20000000 then
    .ok [UInt8.ofNat (0xC0 + value / 0x1000000), UInt8.ofNat (value / 0x10000 % 0x100),
      UInt8.ofNat (value / 0x100 % 0x100), UInt8.ofNat (value % 0x100)]
  else
    .error (.malformed (.compressedUnsigned value))

/-- A value from `-half` up to `half`, modulo `half` and with the sign in the lowest bit. -/
def rotate (half : Nat) (value : Int) : Nat :=
  (value % half).toNat * 2 + (if value < 0 then 1 else 0)

/-- The width follows the range of the value and not its rotated form, so that a rotated
value may be stored wider than it needs. -/
def encodeSigned (value : Int) : Except Fault (List UInt8) :=
  if -0x40 ≤ value ∧ value < 0x40 then
    .ok [UInt8.ofNat (rotate 0x40 value)]
  else if -0x2000 ≤ value ∧ value < 0x2000 then
    let rotated := rotate 0x2000 value
    .ok [UInt8.ofNat (0x80 + rotated / 0x100), UInt8.ofNat (rotated % 0x100)]
  else if -0x10000000 ≤ value ∧ value < 0x10000000 then
    let rotated := rotate 0x10000000 value
    .ok [UInt8.ofNat (0xC0 + rotated / 0x1000000), UInt8.ofNat (rotated / 0x10000 % 0x100),
      UInt8.ofNat (rotated / 0x100 % 0x100), UInt8.ofNat (rotated % 0x100)]
  else
    .error (.malformed (.compressedSigned value))

/-- The inverse of `rotate`. -/
def unrotate (half rotated : Nat) : Int :=
  if rotated % 2 = 1 then (rotated / 2 : Nat) - half
  else (rotated / 2 : Nat)

def appendUnsigned (data : Bytes) (value : Nat) : Except Fault Bytes :=
  (encodeUnsigned value).map data.appendList

def appendSigned (data : Bytes) (value : Int) : Except Fault Bytes :=
  (encodeSigned value).map data.appendList

end ClrDecompiler.Compressed

namespace ClrDecompiler.Bytes

/-- An index that needs more than two bytes is refused where the index is not wide. -/
def appendIndex (data : Bytes) (value : UInt32) (wide : Bool) : Except Fault Bytes :=
  if wide then .ok (data.appendWord32 value)
  else if value.toNat < 0x10000 then .ok (data.appendNumber 2 value.toNat)
  else .error (.malformed (.narrowIndex value.toNat))

end ClrDecompiler.Bytes
