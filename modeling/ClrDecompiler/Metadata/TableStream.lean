/-
This file reads the stream of the tables: its header, the places of the tables and their
rows.
-/

import ClrDecompiler.Metadata.Row

namespace ClrDecompiler.Metadata

/-- The known tables that are present are given with the offsets of their first rows. -/
structure TableStream where
  data : Bytes
  majorVersion : UInt8
  minorVersion : UInt8
  valid : UInt64
  sorted : UInt64
  sizes : TableSizes
  offsets : List (TableId × Nat)

/-- The rows of one table. -/
structure Table where
  data : Bytes
  rowCount : Nat
  sizes : TableSizes

namespace Table

/-- The row with a number, counted from one. -/
def row (ρ : Type) [Row ρ] (table : Table) (number : Nat) : Except Fault ρ :=
  if number = 0 ∨ table.rowCount < number then .error .outOfBounds
  else
    let offset := (number - 1) * table.sizes.rowSize (Row.table ρ)
    ((Row.read table.sizes : Read ρ).runAt table.data offset).1

end Table

namespace TableStream

/-- The numbers whose bits are set in a mask. -/
def slotsOf (mask : UInt64) : List Nat :=
  (List.range TableId.slots).filter fun slot => mask.toNat.testBit slot

def readCounts : List Nat → Read (List (Nat × Nat))
  | [] => return []
  | slot :: rest => do
    let count ← Read.number 4
    return (slot, count) :: (← readCounts rest)

def countArray (counts : List (Nat × Nat)) : Array Nat :=
  counts.foldl (fun found (slot, count) => found.setIfInBounds slot count)
    (Array.replicate TableId.slots 0)

/-- The tables lie one after the other in the order of their numbers. A table without a
known layout can only be followed by others of its kind. -/
def layOut (sizes : TableSizes) (size : Nat) :
    List Nat → Nat → Option Nat → Except Fault (List (TableId × Nat))
  | [], _, _ => .ok []
  | slot :: rest, offset, unknown =>
    match TableId.ofNumber? slot, unknown with
    | none, _ => layOut sizes size rest offset (unknown <|> some slot)
    | some _, some before => .error (.malformed (.unknownTable slot before))
    | some table, none =>
      let stop := offset + sizes.rowCount table * sizes.rowSize table
      if size < stop then .error .outOfBounds
      else do return (table, offset) :: (← layOut sizes size rest stop none)

def readHeader (valid : UInt64) (heapFlags : UInt8) : Read (Array Nat) := do
  let counts ← readCounts (slotsOf valid)
  if heapFlags &&& 0x40 ≠ 0 then
    let _ ← Read.word32
  return countArray counts

def read (data : Bytes) : Except Fault TableStream := do
  if data.size < 24 then throw .outOfBounds
  let majorVersion ← Bytes.orOutOfBounds (data.byteAt? 4)
  let minorVersion ← Bytes.orOutOfBounds (data.byteAt? 5)
  let heapFlags ← Bytes.orOutOfBounds (data.byteAt? 6)
  let valid ← Bytes.orOutOfBounds (data.word64At? 8)
  let sorted ← Bytes.orOutOfBounds (data.word64At? 16)
  if valid = 0 then throw (.malformed .noTables)
  let (counts, start) := (readHeader valid heapFlags).runAt data 24
  let sizes := TableSizes.ofCounts (← counts) heapFlags
  let offsets ← layOut sizes data.size (slotsOf valid) start none
  return { data, majorVersion, minorVersion, valid, sorted, sizes, offsets }

/-- The number of tables that are present, known or not. -/
def tableCount (stream : TableStream) : Nat :=
  (slotsOf stream.valid).length

def has (stream : TableStream) (table : TableId) : Bool :=
  stream.valid.toNat.testBit table.number

def rowCount (stream : TableStream) (table : TableId) : Nat :=
  stream.sizes.rowCount table

/-- The known tables that are present with their numbers of rows. -/
def summary (stream : TableStream) : List (TableId × Nat) :=
  (TableId.all.filter stream.has).map fun table => (table, stream.rowCount table)

/-- The rows of a table, unless it is absent. -/
def table? (stream : TableStream) (table : TableId) : Except Fault (Option Table) :=
  match stream.offsets.find? fun place => place.1 == table with
  | none => .ok none
  | some (_, offset) =>
    let rowCount := stream.rowCount table
    match stream.data.slice? offset (rowCount * stream.sizes.rowSize table) with
    | some data => .ok (some { data, rowCount, sizes := stream.sizes })
    | none => .error .outOfBounds

/-- All rows of a table with their numbers, none if it is absent. The first row that is
refused refuses all. -/
def rows (ρ : Type) [Row ρ] (stream : TableStream) : Except Fault (List (Nat × ρ)) := do
  match ← stream.table? (Row.table ρ) with
  | none => return []
  | some table =>
    (List.range table.rowCount).mapM fun index => do
      return (index + 1, ← table.row ρ (index + 1))

end TableStream

end ClrDecompiler.Metadata
