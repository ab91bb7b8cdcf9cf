/-
This file defines byte strings and the little-endian numbers that are read from them and
appended to them.
-/

namespace ClrDecompiler

abbrev Bytes := Array UInt8

namespace Bytes

def ofLittleEndian : List UInt8 → Nat
  | [] => 0
  | byte :: rest => byte.toNat + 256 * ofLittleEndian rest

/-- The `width` low bytes of a number, least significant first. -/
def littleEndian : Nat → Nat → List UInt8
  | 0, _ => []
  | width + 1, value => UInt8.ofNat (value % 256) :: littleEndian width (value / 256)

/-- The `count` bytes at `offset`, unless they cross the end. -/
def slice? (data : Bytes) (offset count : Nat) : Option Bytes :=
  if offset + count ≤ data.size then some (data.extract offset (offset + count)) else none

def numberAt? (data : Bytes) (offset width : Nat) : Option Nat :=
  (slice? data offset width).map fun bytes => ofLittleEndian bytes.toList

def byteAt? (data : Bytes) (offset : Nat) : Option UInt8 :=
  data[offset]?

def word16At? (data : Bytes) (offset : Nat) : Option UInt16 :=
  (numberAt? data offset 2).map UInt16.ofNat

def word32At? (data : Bytes) (offset : Nat) : Option UInt32 :=
  (numberAt? data offset 4).map UInt32.ofNat

def word64At? (data : Bytes) (offset : Nat) : Option UInt64 :=
  (numberAt? data offset 8).map UInt64.ofNat

def appendNumber (data : Bytes) (width value : Nat) : Bytes :=
  data ++ littleEndian width value

def appendWord32 (data : Bytes) (value : UInt32) : Bytes :=
  data.appendNumber 4 value.toNat

def appendWord64 (data : Bytes) (value : UInt64) : Bytes :=
  data.appendNumber 8 value.toNat

/-- The least multiple of `alignment` that is not below `size`. -/
def alignUp (alignment size : Nat) : Nat :=
  (size + (alignment - 1)) / alignment * alignment

/-- Zero bytes are appended until the size is a multiple of `alignment`. -/
def padTo (data : Bytes) (alignment : Nat) : Bytes :=
  data ++ Array.replicate (alignUp alignment data.size - data.size) (0 : UInt8)

end Bytes

end ClrDecompiler
