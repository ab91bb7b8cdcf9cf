/-
This file reads the heaps of the metadata: strings, blobs, identifiers and the string
literals of the code.
-/

import ClrDecompiler.Bytes.Cursor
import ClrDecompiler.Text.Utf16

namespace ClrDecompiler.Metadata

/-- The index of the first zero byte at or after a position. -/
def zeroFrom? (data : Bytes) (position : Nat) : Option Nat :=
  if inside : position < data.size then
    if data[position] = 0 then some position else zeroFrom? data (position + 1)
  else none
termination_by data.size - position

/-- Text in UTF-8, each ended by a zero byte. -/
structure StringHeap where
  data : Bytes
  deriving DecidableEq, Repr

namespace StringHeap

def ofBytes (data : Bytes) : Except Fault StringHeap :=
  if data[0]? = some 0 then .ok ⟨data⟩ else .error (.malformed .stringHeap)

def get (heap : StringHeap) (index : Nat) : Except Fault String :=
  if heap.data.size ≤ index then .error .outOfBounds
  else match zeroFrom? heap.data index with
    | none => .error (.malformed (.stringIndex index))
    | some stop =>
      match Utf8.decode (heap.data.extract index stop).toList with
      | .ok text => .ok text
      | .error _ => .error (.malformed (.stringIndex index))

end StringHeap

/-- Byte strings, each after its compressed length. -/
structure BlobHeap where
  data : Bytes
  deriving DecidableEq, Repr

namespace BlobHeap

def ofBytes (data : Bytes) : Except Fault BlobHeap :=
  if data[0]? = some 0 then .ok ⟨data⟩ else .error (.malformed .blobHeap)

def readBlob : Read Bytes := do
  Read.bytes (← Read.compressedUnsigned)

def get (heap : BlobHeap) (index : Nat) : Except Fault Bytes :=
  if heap.data.size ≤ index then .error .outOfBounds
  else (readBlob.runAt heap.data index).1

end BlobHeap

/-- Identifiers of sixteen bytes, counted from one. -/
structure GuidHeap where
  data : Bytes
  deriving DecidableEq, Repr

namespace GuidHeap

def ofBytes (data : Bytes) : Except Fault GuidHeap :=
  if data.size % 16 = 0 then .ok ⟨data⟩ else .error (.malformed (.guidHeap data.size))

def get (heap : GuidHeap) (index : Nat) : Except Fault Bytes :=
  if index = 0 then .error .outOfBounds
  else Bytes.orOutOfBounds (heap.data.slice? ((index - 1) * 16) 16)

end GuidHeap

/-- Text in UTF-16, each after the compressed length of its bytes. -/
structure UserStringHeap where
  data : Bytes
  deriving DecidableEq, Repr

namespace UserStringHeap

def ofBytes (data : Bytes) : Except Fault UserStringHeap :=
  if data[0]? = some 0 then .ok ⟨data⟩ else .error .outOfBounds

def get (heap : UserStringHeap) (index : Nat) : Except Fault String :=
  if heap.data.size ≤ index then .error .outOfBounds
  else (BlobHeap.readBlob.runAt heap.data index).1.map fun bytes =>
    String.ofList (Utf16.decode (Utf16.units bytes.toList))

end UserStringHeap

end ClrDecompiler.Metadata
