/-
This file reads the sequence points of a method: the places in source documents that its
code comes from.
-/

import ClrDecompiler.Bytes.Cursor

namespace ClrDecompiler.Symbols

/-- A place in a document from an offset of the code on. Documents are counted from one. -/
structure SequencePoint where
  offset : Nat
  document : Nat
  startLine : Nat
  startColumn : Nat
  endLine : Nat
  endColumn : Nat
  deriving DecidableEq, Repr

namespace SequencePoint

/-- The line number of code that belongs to no place. -/
def hiddenLine : Nat := 0xFEEFEE

def hidden (offset document : Nat) : SequencePoint :=
  ⟨offset, document, hiddenLine, 0, hiddenLine, 0⟩

def isHidden (point : SequencePoint) : Bool :=
  point.startLine == hiddenLine

/-- What the records so far leave behind: the document, the offset, the start of the last
place and whether there was any point. -/
structure Progress where
  document : Nat
  offset : Nat := 0
  place : Option (Nat × Nat) := none
  begun : Bool := false

def lineOf (line : Int) : Except Fault Nat :=
  if 0 ≤ line ∧ line < UInt32.size then .ok line.toNat else .error (.malformed (.pointLine line))

def columnOf (column : Int) : Except Fault Nat :=
  if 0 ≤ column ∧ column < UInt32.size then .ok column.toNat
  else .error (.malformed (.pointColumn column))

/-- The first place is stored as it is and every later one relative to the one before. -/
def readStart : Option (Nat × Nat) → Read (Nat × Nat)
  | none => do
    let line ← Read.compressedUnsigned
    return (line, ← Read.compressedUnsigned)
  | some (line, column) => do
    let line := line + (← Read.compressedSigned)
    let column := column + (← Read.compressedSigned)
    return (← lineOf line, ← columnOf column)

/-- A place that ends on its first line ends in a later column. -/
def readExtent : Read (Nat × Int) := do
  let lines ← Read.compressedUnsigned
  if lines = 0 then return (lines, (← Read.compressedUnsigned : Nat))
  else return (lines, ← Read.compressedSigned)

def readPoint (progress : Progress) (advance : Nat) : Read (SequencePoint × Progress) := do
  let offset := progress.offset + advance
  if UInt32.size ≤ offset then throw (.malformed .pointOffset)
  let (lines, columns) ← readExtent
  if lines = 0 ∧ columns = 0 then
    return (hidden offset progress.document, { progress with offset, begun := true })
  let (startLine, startColumn) ← readStart progress.place
  let endColumn ← columnOf (startColumn + columns)
  return (
    { offset, document := progress.document, startLine, startColumn
      endLine := min (startLine + lines) (UInt32.size - 1), endColumn },
    { progress with offset, place := some (startLine, startColumn), begun := true })

/-- The records up to the end. One that does not advance the offset changes the document,
unless it is the first. The first argument bounds the number of records. -/
def readRecords : Nat → Progress → Read (List SequencePoint)
  | 0, _ => return []
  | records + 1, progress => do
    if !(← Read.hasMore) then return []
    let advance ← Read.compressedUnsigned
    if advance = 0 ∧ progress.begun then
      let document ← Read.compressedUnsigned
      readRecords records { progress with document }
    else
      let (point, progress) ← readPoint progress advance
      return point :: (← readRecords records progress)

/-- The signature of the local variables stands first. A method in several documents names
its first document after that. -/
def readAll (document : Nat) : Read (List SequencePoint) := do
  let _ ← Read.compressedUnsigned
  let document ← if document = 0 then Read.compressedUnsigned else pure document
  readRecords (← Read.size) { document }

def decode (data : Bytes) (document : Nat) : Except Fault (List SequencePoint) :=
  (readAll document).runOn data

end SequencePoint

end ClrDecompiler.Symbols
