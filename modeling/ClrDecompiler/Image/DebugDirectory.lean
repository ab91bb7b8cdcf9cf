/-
This file reads the entries of the debug directory, among them the one that names the
symbols of the image.
-/

import ClrDecompiler.Bytes.Cursor

namespace ClrDecompiler.Image

/-- The identifier, the age and the path of the symbols. -/
structure CodeView where
  guid : Bytes
  age : UInt32
  path : String
  deriving DecidableEq, Repr

/-- The bytes "RSDS". -/
def CodeView.signature : UInt32 := 0x53445352

/-- A record with another signature names no symbols. -/
def CodeView.read? (data : Bytes) : Except Fault (Option CodeView) := do
  if data.size < 4 then return none
  let signature ← Bytes.orOutOfBounds (data.word32At? 0)
  if signature ≠ CodeView.signature then return none
  if data.size < 24 then throw .outOfBounds
  let age ← Bytes.orOutOfBounds (data.word32At? 20)
  let path := (data.extract 24 data.size).toList.takeWhile (· ≠ 0)
  return some { guid := data.extract 4 20, age, path := Utf8.decodeLossy path }

structure DebugEntry where
  timestamp : UInt32
  majorVersion : UInt16
  minorVersion : UInt16
  type : UInt32
  size : UInt32
  address : UInt32
  offset : UInt32
  codeView : Option CodeView
  deriving DecidableEq, Repr

namespace DebugEntry

def byteCount : Nat := 28

def codeViewType : UInt32 := 2

/-- The letters "PM" as a version number stand for portable symbols. -/
def isPortable (entry : DebugEntry) : Bool :=
  entry.type == codeViewType && entry.minorVersion == 0x504D

/-- The identifier and the time stamp together identify the symbols. -/
def symbolsId? (entry : DebugEntry) : Option Bytes :=
  entry.codeView.map fun codeView => codeView.guid.appendWord32 entry.timestamp

def readRecord : Read DebugEntry := do
  return {
    timestamp := ← Read.word32
    majorVersion := ← Read.word16
    minorVersion := ← Read.word16
    type := ← Read.word32
    size := ← Read.word32
    address := ← Read.word32
    offset := ← Read.word32
    codeView := none }

def readAt (directory image : Bytes) (position : Nat) : Except Fault DebugEntry := do
  let entry ← (readRecord.runAt directory (position + 4)).1
  if entry.type = codeViewType then
    let data ← Bytes.orOutOfBounds (image.slice? entry.offset.toNat entry.size.toNat)
    return { entry with codeView := ← CodeView.read? data }
  else return entry

def readAll (directory image : Bytes) : Except Fault (List DebugEntry) :=
  if directory.size % byteCount ≠ 0 then .error (.malformed (.debugDirectorySize directory.size))
  else (List.range (directory.size / byteCount)).mapM fun index =>
    readAt directory image (index * byteCount)

end DebugEntry

end ClrDecompiler.Image
