/-
This file reads the container of executable images: its headers, its data directories and
its section table.
-/

import ClrDecompiler.Bytes.Cursor
import ClrDecompiler.Metadata.CliHeader

namespace ClrDecompiler.Image

open Metadata

structure Section where
  virtualAddress : Nat
  virtualSize : Nat
  rawOffset : Nat
  rawSize : Nat
  deriving DecidableEq, Repr

/-- The part of the headers that only some images have. -/
structure OptionalHeader where
  imageBase : Nat
  fileAlignment : Nat
  directories : List Extent
  deriving DecidableEq, Repr

structure Container where
  machine : Nat
  timestamp : UInt32
  optional : Option OptionalHeader
  sections : List Section
  deriving DecidableEq, Repr

/-- Whatever contradicts the format of the container is refused in the same way. -/
def orRefused {α : Type} : Option α → Except Fault α
  | some value => .ok value
  | none => .error .container

def require (holds : Bool) : Except Fault Unit :=
  if holds then .ok () else .error .container

namespace Container

def maxDirectories : Nat := 16

def readExtents (data : Bytes) (offset : Nat) : Nat → Except Fault (List Extent)
  | 0 => .ok []
  | count + 1 => do
    let address ← orRefused (data.word32At? offset)
    let size ← orRefused (data.word32At? (offset + 4))
    return { address, size } :: (← readExtents data (offset + 8) count)

/-- The wide form of the header has an image base of eight bytes and, further on, four more
fields of eight bytes instead of four. -/
def readOptionalHeader (data : Bytes) (offset : Nat) : Except Fault OptionalHeader := do
  let magic ← orRefused (data.numberAt? offset 2)
  require (magic == 0x10B || magic == 0x20B)
  let wide := magic == 0x20B
  let imageBase ←
    if wide then orRefused (data.numberAt? (offset + 24) 8)
    else orRefused (data.numberAt? (offset + 28) 4)
  let fileAlignment ← orRefused (data.numberAt? (offset + 36) 4)
  let countOffset := offset + if wide then 108 else 92
  let count ← orRefused (data.numberAt? countOffset 4)
  require (count ≤ maxDirectories)
  return { imageBase, fileAlignment, directories := ← readExtents data (countOffset + 4) count }

def sectionHeaderSize : Nat := 40

def readSections (data : Bytes) (offset : Nat) : Nat → Except Fault (List Section)
  | 0 => .ok []
  | count + 1 => do
    let _ ← orRefused (data.slice? offset sectionHeaderSize)
    let virtualSize ← orRefused (data.numberAt? (offset + 8) 4)
    let virtualAddress ← orRefused (data.numberAt? (offset + 12) 4)
    let rawSize ← orRefused (data.numberAt? (offset + 16) 4)
    let rawOffset ← orRefused (data.numberAt? (offset + 20) 4)
    return { virtualAddress, virtualSize, rawOffset, rawSize } ::
      (← readSections data (offset + sectionHeaderSize) count)

def readHeaders (data : Bytes) : Except Fault Container := do
  require (0x40 ≤ data.size)
  require (data.extract 0 2 == #[0x4D, 0x5A])
  let start ← orRefused (data.numberAt? 0x3C 4)
  require (0x40 ≤ start)
  require ((← orRefused (data.slice? start 4)) == #[0x50, 0x45, 0, 0])
  let _ ← orRefused (data.slice? (start + 4) 20)
  let machine ← orRefused (data.numberAt? (start + 4) 2)
  let sectionCount ← orRefused (data.numberAt? (start + 6) 2)
  let timestamp ← orRefused (data.word32At? (start + 8))
  let optionalSize ← orRefused (data.numberAt? (start + 20) 2)
  let optional ←
    if optionalSize = 0 then pure none else some <$> readOptionalHeader data (start + 24)
  require (sectionCount ≤ data.size / sectionHeaderSize)
  let sections ← readSections data (start + 24 + optionalSize) sectionCount
  return { machine, timestamp, optional, sections }

/-- A directory without address and size is absent. -/
def directory? (container : Container) (index : Nat) : Option Extent := do
  let header ← container.optional
  let found ← header.directories[index]?
  if found.address = 0 ∧ found.size = 0 then none else some found

def debugIndex : Nat := 6

def cliIndex : Nat := 14

/-- The bytes of a section that the container maps into memory. The pages of the section
limit them as well as the aligned end of its raw data. -/
def mappedSize (alignment : Nat) (part : Section) : Nat :=
  if part.rawSize = 0 then 0
  else
    let raw := Bytes.alignUp alignment (part.rawOffset + part.rawSize) -
      part.rawOffset / 0x200 * 0x200
    let mapped := min raw (Bytes.alignUp 0x1000 part.rawSize)
    if part.virtualSize = 0 then mapped
    else min mapped (Bytes.alignUp 0x1000 part.virtualSize)

/-- A power of two. -/
def isAlignment (value : Nat) : Bool :=
  value ≠ 0 && value &&& (value - 1) == 0

/-- The place in the file of an address of the memory, as the container maps it. -/
def offset? (container : Container) (address : Nat) : Option Nat := do
  let header ← container.optional
  let alignment := header.fileAlignment
  if isAlignment alignment then
    let part ← container.sections.find? fun part =>
      part.virtualAddress ≤ address &&
        address < part.virtualAddress + mappedSize alignment part
    return part.rawOffset + (address - part.virtualAddress)
  else none

/-- The type, the size of the data and the offset of the data of a debug entry. -/
def readDebugEntry (data : Bytes) (offset : Nat) : Except Fault (Nat × Nat × Nat) := do
  return (← orRefused (data.numberAt? (offset + 12) 4),
    ← orRefused (data.numberAt? (offset + 16) 4), ← orRefused (data.numberAt? (offset + 24) 4))

/-- The record that names the symbols is of one of two kinds, told apart by a signature. -/
def checkCodeView (data : Bytes) (size offset : Nat) : Except Fault Unit := do
  require (24 ≤ size)
  let signature ← orRefused (data.numberAt? offset 4)
  if signature = 0x53445352 then
    let _ ← orRefused (data.slice? offset 24)
    require (offset + size ≤ data.size)
  else if signature = 0x3031424E then
    let _ ← orRefused (data.slice? offset 16)
    require (offset + size ≤ data.size)

def checkReproducible (data : Bytes) (size offset : Nat) : Except Fault Unit := do
  if size ≠ 0 then
    let length ← orRefused (data.numberAt? offset 4)
    require (offset + 4 + length ≤ data.size)

def checkDebug (container : Container) (data : Bytes) : Except Fault Unit := do
  match container.directory? debugIndex with
  | none => return ()
  | some found =>
    let offset ← orRefused (container.offset? found.address.toNat)
    require (offset + found.size.toNat ≤ data.size)
    let entries ← (List.range (found.size.toNat / 28)).mapM fun index =>
      readDebugEntry data (offset + 28 * index)
    match entries.find? fun entry => entry.1 == 2 with
    | some (_, size, place) => checkCodeView data size place
    | none => pure ()
    match entries.find? fun entry => entry.1 == 16 with
    | some (_, size, place) => checkReproducible data size place
    | none => pure ()

def checkCli (container : Container) (data : Bytes) : Except Fault Unit := do
  match container.directory? cliIndex with
  | none => return ()
  | some found =>
    let header ← orRefused (container.offset? found.address.toNat)
    let _ ← orRefused (data.slice? header 72)
    let address ← orRefused (data.numberAt? (header + 8) 4)
    let size ← orRefused (data.numberAt? (header + 12) 4)
    let offset ← orRefused (container.offset? address)
    require (offset + size ≤ data.size)
    let length ← orRefused (data.numberAt? (offset + 12) 4)
    let version ← orRefused (data.slice? (offset + 16) length)
    require (Utf8.decode version.toList).isOk
    require (offset + 16 + length + 4 ≤ data.size)

/-- Headers whose debug and metadata directories lead to data that is in the file. -/
def read (data : Bytes) : Except Fault Container := do
  let container ← readHeaders data
  container.checkDebug data
  container.checkCli data
  return container

end Container

end ClrDecompiler.Image
