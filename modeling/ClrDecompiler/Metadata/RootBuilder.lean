/-
This file lays out a metadata root and its streams.
-/

import ClrDecompiler.Fault
import ClrDecompiler.Metadata.Root

namespace ClrDecompiler.Metadata.Root

/-- The size of the directory entry of a stream. -/
def entrySize (name : String) : Nat :=
  8 + (name.utf8ByteSize + 4) / 4 * 4

/-- The directory entries of streams that lie one after the other. -/
def appendEntries (data : Bytes) :
    Nat → List (String × Bytes) → Except Fault Bytes
  | _, [] => .ok data
  | offset, (name, stream) :: rest =>
    let size := Bytes.alignUp 4 stream.size
    if UInt32.size ≤ offset then .error (.malformed .imageSize)
    else
      let entry := (data.appendNumber 4 offset).appendNumber 4 size
      appendEntries (Bytes.padTo ((entry ++ Utf8.encode name).push 0) 4) (offset + size) rest

/-- A root with a version text and streams in the given order. -/
def build (version : String) (streams : List (String × Bytes)) : Except Fault Bytes := do
  let version := Bytes.padTo ((Utf8.encode version).push 0) 4
  let directory := streams.foldr (fun (name, _) size => entrySize name + size) 0
  let fixed := [(4, signatureValue.toNat), (2, 1), (2, 1), (4, 0), (4, version.size)]
  let start := fixed.foldl (fun data (width, value) => Bytes.appendNumber data width value) #[]
  let counts := Bytes.appendNumber (Bytes.appendNumber (start ++ version) 2 0) 2 streams.length
  let data ← appendEntries counts (16 + version.size + 4 + directory) streams
  return streams.foldl (fun data (_, stream) => Bytes.padTo (data ++ stream) 4) data

end ClrDecompiler.Metadata.Root
