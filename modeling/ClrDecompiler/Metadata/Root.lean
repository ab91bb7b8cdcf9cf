/-
This file reads the root of the metadata: the version of the format, the version text and
the directory of the streams.
-/

import ClrDecompiler.Bytes.Cursor

namespace ClrDecompiler.Metadata

/-- An entry of the stream directory. The offset counts from the start of the root. -/
structure StreamHeader where
  offset : UInt32
  size : UInt32
  name : String
  deriving DecidableEq, Repr

namespace StreamHeader

/-- A name has this many bytes at most before its zero byte. -/
def maxNameLength : Nat := 32

def latinText (bytes : List UInt8) : String :=
  String.ofList (bytes.map fun byte => Char.ofNat byte.toNat)

def readAt (data : Bytes) (position : Nat) : Except Fault StreamHeader := do
  if data.size < position + 9 then throw .outOfBounds
  let offset ← Bytes.orOutOfBounds (data.word32At? position)
  let size ← Bytes.orOutOfBounds (data.word32At? (position + 4))
  let window := (data.extract (position + 8) (position + 8 + maxNameLength + 1)).toList
  if window.all (· ≠ 0) then throw (.malformed .streamName)
  return { offset, size, name := latinText (window.takeWhile (· ≠ 0)) }

/-- The size of the entry in the directory. The size of the name is that of its UTF-8 form. -/
def encodedSize (header : StreamHeader) : Nat :=
  8 + Bytes.alignUp 4 (header.name.utf8ByteSize + 1)

end StreamHeader

structure Root where
  signature : UInt32
  majorVersion : UInt16
  minorVersion : UInt16
  version : String
  flags : UInt16
  streams : List StreamHeader
  deriving DecidableEq, Repr

namespace Root

/-- The bytes "BSJB". -/
def signatureValue : UInt32 := 0x424A5342

def maxStreams : Nat := 16

def readDirectory (data : Bytes) : Nat → Nat → Except Fault (List StreamHeader)
  | 0, _ => .ok []
  | count + 1, position => do
    if data.size ≤ position then throw .outOfBounds
    let header ← StreamHeader.readAt data position
    let stop := header.offset.toNat + header.size.toNat
    if UInt32.size ≤ stop then
      throw (.malformed (.streamExtent header.offset.toNat header.size.toNat))
    if data.size < stop then throw .outOfBounds
    return header :: (← readDirectory data count (position + header.encodedSize))

def read (data : Bytes) : Except Fault Root := do
  if data.size < 20 then throw .outOfBounds
  let signature ← Bytes.orOutOfBounds (data.word32At? 0)
  if signature ≠ signatureValue then throw (.malformed (.rootSignature signature))
  let versionLength ← Bytes.orOutOfBounds (data.numberAt? 12 4)
  let versionEnd := 16 + versionLength
  if data.size < versionEnd + 4 then throw .outOfBounds
  let version := (data.extract 16 versionEnd).toList.takeWhile (· ≠ 0)
  let flags ← Bytes.orOutOfBounds (data.word16At? versionEnd)
  let count ← Bytes.orOutOfBounds (data.numberAt? (versionEnd + 2) 2)
  if count = 0 ∨ maxStreams < count then throw (.malformed (.streamCount count))
  let streams ← readDirectory data count (versionEnd + 4)
  let majorVersion ← Bytes.orOutOfBounds (data.word16At? 4)
  let minorVersion ← Bytes.orOutOfBounds (data.word16At? 6)
  return {
    signature, majorVersion, minorVersion, flags, streams
    version := StreamHeader.latinText version }

/-- The data of the first stream with the name. -/
def streamData? (root : Root) (data : Bytes) (name : String) : Option Bytes := do
  let header ← root.streams.find? fun header => header.name == name
  data.slice? header.offset.toNat header.size.toNat

/-- The tables are in a compressed or an uncompressed stream. -/
def tablesData? (root : Root) (data : Bytes) : Option Bytes :=
  root.streamData? data "#~" <|> root.streamData? data "#-"

end Root

end ClrDecompiler.Metadata
