/-
This file builds the heaps of the metadata. Equal strings, blobs and identifiers are
stored once.
-/

import ClrDecompiler.Bytes.Compressed
import ClrDecompiler.Text.Utf16

namespace ClrDecompiler.Metadata

structure StringHeapBuilder where
  data : Bytes := #[0]
  entries : List (String × Nat) := []

namespace StringHeapBuilder

/-- The empty text is at index zero of every heap. An index is the size of the data before the
text, which the program cuts to 32 bits. The two differ only in a heap of 2^32 bytes or more. -/
def add (builder : StringHeapBuilder) (text : String) : Nat × StringHeapBuilder :=
  if text.isEmpty then (0, builder)
  else match builder.entries.lookup text with
    | some index => (index, builder)
    | none =>
      let index := builder.data.size
      (index,
        { data := (builder.data ++ Utf8.encode text).push 0
          entries := (text, index) :: builder.entries })

end StringHeapBuilder

structure BlobHeapBuilder where
  data : Bytes := #[0]
  entries : List (Bytes × Nat) := []

namespace BlobHeapBuilder

/-- The empty blob is at index zero of every heap. An index has no bound here, as for texts. -/
def add (builder : BlobHeapBuilder) (blob : Bytes) : Except Fault (Nat × BlobHeapBuilder) :=
  if blob.isEmpty then .ok (0, builder)
  else match builder.entries.lookup blob with
    | some index => .ok (index, builder)
    | none => do
      let index := builder.data.size
      if UInt32.size ≤ blob.size then throw (.malformed (.blobSize blob.size))
      let data ← Compressed.appendUnsigned builder.data blob.size
      return (index, { data := data ++ blob, entries := (blob, index) :: builder.entries })

end BlobHeapBuilder

structure GuidHeapBuilder where
  entries : List Bytes := []

namespace GuidHeapBuilder

/-- The number of an identifier, counted from one. -/
def add (builder : GuidHeapBuilder) (guid : Bytes) : Nat × GuidHeapBuilder :=
  match builder.entries.findIdx? (· == guid) with
  | some position => (position + 1, builder)
  | none => (builder.entries.length + 1, { entries := builder.entries ++ [guid] })

def data (builder : GuidHeapBuilder) : Bytes :=
  builder.entries.foldl (· ++ ·) #[]

end GuidHeapBuilder

structure UserStringHeapBuilder where
  data : Bytes := #[0]

namespace UserStringHeapBuilder

/-- Units that need more than a comparison of bytes are announced after the text. -/
def isSpecial (unit : UInt16) : Bool :=
  0x80 ≤ unit || (1 ≤ unit && unit ≤ 8) || (0x0E ≤ unit && unit ≤ 0x1F) || unit == 0x27 ||
    unit == 0x2D

def encodeUnits (units : List UInt16) : List UInt8 :=
  units.flatMap fun unit => Bytes.littleEndian 2 unit.toNat

/-- Every text gets an entry of its own, also the empty one. Its index has no bound here, as for
other texts. -/
def add (builder : UserStringHeapBuilder) (text : String) :
    Except Fault (Nat × UserStringHeapBuilder) := do
  let units := Utf16.encode text
  let length := units.length * 2 + 1
  if UInt32.size ≤ length then throw (.malformed (.userStringLength units.length))
  let data ← Compressed.appendUnsigned builder.data length
  let flag := if units.any isSpecial then 1 else 0
  return (builder.data.size, { data := (data.appendList (encodeUnits units)).push flag })

end UserStringHeapBuilder

end ClrDecompiler.Metadata
