/-
This file reads the header that makes an executable image a managed assembly.
-/

import ClrDecompiler.Bytes.Cursor

namespace ClrDecompiler.Metadata

/-- The place of a part of the image: its relative virtual address and its size. -/
structure Extent where
  address : UInt32
  size : UInt32
  deriving DecidableEq, Repr

structure CliHeader where
  size : UInt32
  majorRuntime : UInt16
  minorRuntime : UInt16
  metadata : Extent
  flags : UInt32
  entryPointToken : UInt32
  resources : Extent
  strongName : Extent
  deriving DecidableEq, Repr

namespace CliHeader

def byteCount : Nat := 72

def maxMetadataSize : Nat := 0x10000000

def readExtent : Read Extent := do
  return { address := ← Read.word32, size := ← Read.word32 }

def readFields : Read CliHeader := do
  let size ← Read.word32
  if size.toNat ≠ byteCount then throw (.malformed (.cliHeaderSize size.toNat))
  let majorRuntime ← Read.word16
  let minorRuntime ← Read.word16
  let metadata ← readExtent
  if metadata.address = 0 then throw (.malformed .metadataAddressZero)
  if metadata.size = 0 then throw (.malformed .metadataSizeZero)
  if maxMetadataSize < metadata.size.toNat then
    throw (.malformed (.metadataSizeLimit metadata.size.toNat))
  return {
    size, majorRuntime, minorRuntime, metadata
    flags := ← Read.word32
    entryPointToken := ← Read.word32
    resources := ← readExtent
    strongName := ← readExtent }

def read (data : Bytes) : Except Fault CliHeader :=
  if data.size < byteCount then .error .outOfBounds else readFields.runOn data

/-- The entry point is a token unless a flag says that it is native code. -/
def entryPoint? (header : CliHeader) : Option Token :=
  let token : Token := ⟨header.entryPointToken⟩
  if header.flags &&& 0x10 ≠ 0 ∨ token.isNull then none else some token

end CliHeader

end ClrDecompiler.Metadata
