/-
This file opens executable images that hold a managed assembly and finds their parts.
-/

import ClrDecompiler.Image.Container
import ClrDecompiler.Image.DebugDirectory

namespace ClrDecompiler.Image

open Metadata

/-- The bytes of an image whose container has been read. -/
structure Assembly where
  data : Bytes
  machine : Nat
  timestamp : UInt32
  header : OptionalHeader
  sections : List Section
  deriving DecidableEq, Repr

namespace Assembly

def read (data : Bytes) : Except Fault Assembly := do
  if data.isEmpty then throw .empty
  let container ← Container.read data
  match container.optional, container.directory? Container.cliIndex with
  | none, _ => throw (.malformed .optionalHeaderMissing)
  | some _, none => throw (.malformed .cliDirectoryMissing)
  | some header, some _ =>
    return { data, machine := container.machine, timestamp := container.timestamp, header
             sections := container.sections }

/-- A directory that has both an address and a size. -/
def directory? (image : Assembly) (index : Nat) : Option Extent :=
  image.header.directories[index]?.filter fun found => found.address ≠ 0 && found.size ≠ 0

/-- The directory of the header of managed code. -/
def cli (image : Assembly) : Except Fault Extent :=
  match image.directory? Container.cliIndex with
  | some found => .ok found
  | none => .error (.malformed .cliDirectoryMissing)

/-- A section covers addresses for the larger of its virtual and its raw size. -/
def offsetIn (address : Nat) : List Section → Except Fault Nat
  | [] => .error (.malformed (.addressUnmapped address))
  | part :: rest =>
    let stop := part.virtualAddress + max part.virtualSize part.rawSize
    if UInt32.size ≤ stop then
      .error (.malformed (.sectionOverflow part.virtualAddress part.virtualSize))
    else if part.virtualAddress ≤ address ∧ address < stop then
      .ok (address - part.virtualAddress + part.rawOffset)
    else offsetIn address rest

/-- The place in the file of a relative virtual address. -/
def offset (image : Assembly) (address : Nat) : Except Fault Nat :=
  if UInt32.size ≤ address then .error (.malformed (.addressTooLarge address))
  else offsetIn address image.sections

def slice (image : Assembly) (offset size : Nat) : Except Fault Bytes :=
  Bytes.orOutOfBounds (image.data.slice? offset size)

def debugEntries (image : Assembly) : Except Fault (List DebugEntry) := do
  match image.directory? Container.debugIndex with
  | none => return []
  | some found =>
    let offset ← image.offset found.address.toNat
    DebugEntry.readAll (← image.slice offset found.size.toNat) image.data

end Assembly

end ClrDecompiler.Image
