/-
This file builds the stream of the tables from rows.
-/

import ClrDecompiler.Bytes.Compressed
import ClrDecompiler.Metadata.TableSizes

namespace ClrDecompiler.Metadata

/-- The rows of all tables in the order in which they were added. -/
structure TableBuilder where
  added : List (TableId × List UInt32) := []

namespace TableBuilder

def rowsOf (builder : TableBuilder) (table : TableId) : List (List UInt32) :=
  builder.added.filterMap fun (owner, values) => if owner = table then some values else none

def rowCount (builder : TableBuilder) (table : TableId) : Nat :=
  (builder.rowsOf table).length

/-- A row has a value for every column of its table: offsets into heaps, rows and coded
indexes as they are stored. The result is the number of the row. -/
def addRow (builder : TableBuilder) (table : TableId) (values : List UInt32) :
    Except Fault (Nat × TableBuilder) :=
  if values.length = table.columns.length then
    .ok (builder.rowCount table + 1, { added := builder.added ++ [(table, values)] })
  else .error (.malformed (.rowShape table values.length))

/-- A heap of this size needs wide indexes. -/
def wideHeapSize : Nat := 0x10000

def heapFlags (strings guids blobs : Bytes) : UInt8 :=
  let flag (heap : Bytes) (bit : UInt8) : UInt8 := if wideHeapSize ≤ heap.size then bit else 0
  flag strings 1 ||| flag guids 2 ||| flag blobs 4

/-- The tables that have rows. -/
def present (builder : TableBuilder) : List TableId :=
  TableId.all.filter fun table => builder.rowCount table ≠ 0

def maskOf (tables : List TableId) : UInt64 :=
  tables.foldl (fun mask table => mask ||| (1 <<< UInt64.ofNat table.number)) 0

/-- Tables of another image can be referred to. Their numbers of rows only count where the
builder has no rows of the table. -/
def rowCounts (builder : TableBuilder) (external : List (TableId × Nat)) : Array Nat :=
  let own := builder.present.map fun table => (table, builder.rowCount table)
  (external ++ own).foldl (fun counts (table, count) => counts.setIfInBounds table.number count)
    (Array.replicate TableId.slots 0)

def appendValue (sizes : TableSizes) (data : Bytes) (column : Column) (value : UInt32) :
    Except Fault Bytes :=
  match column with
  | .word16 =>
    if value.toNat < 0x10000 then .ok (data.appendNumber 2 value.toNat)
    else .error (.malformed (.narrowColumn value.toNat))
  | .word32 => .ok (data.appendWord32 value)
  | column => data.appendIndex value (sizes.isWide column)

def appendRow (sizes : TableSizes) (data : Bytes) (table : TableId) (values : List UInt32) :
    Except Fault Bytes :=
  (table.columns.zip values).foldlM
    (fun data (column, value) => appendValue sizes data column value) data

def appendTable (builder : TableBuilder) (sizes : TableSizes) (data : Bytes)
    (table : TableId) : Except Fault Bytes :=
  (builder.rowsOf table).foldlM (fun data values => appendRow sizes data table values) data

/-- The header of the stream, up to the numbers of rows. -/
def header (builder : TableBuilder) (flags : UInt8) (sorted : UInt64) : Bytes :=
  let valid := maskOf builder.present
  let start := Bytes.appendWord64 #[0, 0, 0, 0, 2, 0, flags, 1] valid
  builder.present.foldl (fun data table => data.appendNumber 4 (builder.rowCount table))
    (start.appendWord64 (sorted &&& valid))

def build (builder : TableBuilder) (strings guids blobs : Bytes)
    (external : List (TableId × Nat)) (sorted : UInt64) : Except Fault Bytes := do
  let flags := heapFlags strings guids blobs
  let sizes := TableSizes.ofCounts (builder.rowCounts external) flags
  let data ← builder.present.foldlM (builder.appendTable sizes) (builder.header flags sorted)
  return data.padTo 4

end TableBuilder

end ClrDecompiler.Metadata
