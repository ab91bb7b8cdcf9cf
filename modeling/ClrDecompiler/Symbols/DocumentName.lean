/-
This file stores the names of source documents in blobs: a separator and the parts of the
name between separators, each a blob of its own.
-/

import ClrDecompiler.Metadata.Heap
import ClrDecompiler.Metadata.HeapBuilder
import ClrDecompiler.Text.Pieces

namespace ClrDecompiler.Symbols.DocumentName

open Metadata

/-- The names are written with this separator. -/
def separator : Char := '/'

/-- The blobs of the parts and the text that refers to them. An empty part needs no blob. -/
def appendParts (blobs : BlobHeapBuilder) (text : Bytes) :
    List String → Except Fault (Bytes × BlobHeapBuilder)
  | [] => .ok (text, blobs)
  | part :: rest => do
    let (index, blobs) ← blobs.add (Utf8.encode part)
    appendParts blobs (← Compressed.appendUnsigned text index) rest

def add (blobs : BlobHeapBuilder) (name : String) : Except Fault (Nat × BlobHeapBuilder) := do
  let (text, blobs) ← appendParts blobs #[separator.toNat.toUInt8] (Text.split separator name)
  blobs.add text

/-- The parts that the rest of a blob refers to. The first argument bounds their number. -/
def readParts (blobs : BlobHeap) : Nat → Read (List String)
  | 0 => return []
  | parts + 1 => do
    if !(← Read.hasMore) then return []
    let part ← blobs.get (← Read.compressedUnsigned)
    return Utf8.decodeLossy part.toList :: (← readParts blobs parts)

/-- A zero byte in place of the separator means that there is none. -/
def readName (blobs : BlobHeap) : Read String := do
  let mark ← Read.word8
  let parts ← readParts blobs (← Read.size)
  let between := if mark = 0 then "" else String.singleton (Char.ofNat mark.toNat)
  return between.intercalate parts

def get (blobs : BlobHeap) (index : Nat) : Except Fault String := do
  (readName blobs).runOn (← blobs.get index)

end ClrDecompiler.Symbols.DocumentName
