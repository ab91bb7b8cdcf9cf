/-
This file derives the widths of the columns and rows of the tables from the numbers of
rows and the sizes of the heaps.
-/

import ClrDecompiler.Metadata.CodedIndex

namespace ClrDecompiler.Metadata

structure TableSizes where
  rowCount : TableId → Nat
  wideStrings : Bool
  wideGuids : Bool
  wideBlobs : Bool

namespace TableSizes

/-- The counts are given by table number. The flags of the heaps are bits of one byte. -/
def ofCounts (counts : Array Nat) (heapFlags : UInt8) : TableSizes where
  rowCount table := counts[table.number]?.getD 0
  wideStrings := heapFlags &&& 1 ≠ 0
  wideGuids := heapFlags &&& 2 ≠ 0
  wideBlobs := heapFlags &&& 4 ≠ 0

/-- The bits that hold every row of a table, one bit for an empty table. -/
def rowBits (sizes : TableSizes) (table : TableId) : Nat :=
  max 1 (bitLength (sizes.rowCount table))

def isWideRow (sizes : TableSizes) (table : TableId) : Bool :=
  0xFFFF < sizes.rowCount table

/-- The bits of the tag and of the rows of the largest candidate. -/
def codedBits (sizes : TableSizes) (kind : CodedKind) : Nat :=
  (kind.candidates.map sizes.rowBits).foldl max 0 + kind.tagBits

def isWideCoded (sizes : TableSizes) (kind : CodedKind) : Bool :=
  16 < sizes.codedBits kind

/-- Whether the indexes of a column take four bytes. -/
def isWide (sizes : TableSizes) : Column → Bool
  | .word16 => false
  | .word32 => true
  | .string => sizes.wideStrings
  | .guid => sizes.wideGuids
  | .blob => sizes.wideBlobs
  | .row table => sizes.isWideRow table
  | .coded kind => sizes.isWideCoded kind

def columnSize (sizes : TableSizes) (column : Column) : Nat :=
  if sizes.isWide column then 4 else 2

def rowSize (sizes : TableSizes) (table : TableId) : Nat :=
  (table.columns.map sizes.columnSize).foldr (· + ·) 0

end TableSizes

end ClrDecompiler.Metadata
