/-
This file reads the values of the columns of the tables with accesses that are made without
asking. The numbers of rows and the widths of the coded indexes are kept in arrays.
-/

import ClrDecompiler.Metadata.TableStream
import ClrDecompiler.Proofs.Metadata.IndexWidth
import ClrDecompiler.Proofs.Metadata.RowReader
import ClrDecompiler.Proofs.Metadata.Token
import ClrDecompiler.Proofs.Strict.Number

namespace ClrDecompiler.Strict

open Metadata

def leadingZeros (width value : Nat) : Nat :=
  width - bitLength value

/-- The binary digits of a number, counted from the digits that it leaves out. -/
def digits (width value : Nat) : Run Nat :=
  difference width (leadingZeros width value)

def rowBits (count : Nat) : Run Nat :=
  if count = 0 then .ok 1 else digits 32 count

def tagBits (kind : CodedKind) : Run Nat := do
  digits 64 (← difference kind.candidates.length 1)

def codedBits (counts : Array Nat) (kind : CodedKind) : Run Nat := do
  let bits ← kind.candidates.mapM fun table => do rowBits (← item counts table.number)
  sum (bits.foldl max 0) (← tagBits kind)

def decode (kind : CodedKind) (value : UInt32) : Run CodedIndex := do
  let bits ← tagBits kind
  let mask ← difference (1 <<< bits) 1
  match kind.candidates[value.toNat &&& mask]? with
  | some table => return ⟨table, UInt32.ofNat (value.toNat >>> bits)⟩
  | none => throw (.refused .outOfBounds)

/-- The numbers of rows stand at the numbers of the tables, the digits of the coded indexes at the
places of their kinds. -/
structure TableInfo where
  rowCounts : Array Nat
  codedBits : Array Nat
  wideStrings : Bool
  wideGuids : Bool
  wideBlobs : Bool

namespace TableInfo

def ofCounts (counts : Array Nat) (heapFlags : UInt8) : Run TableInfo := do
  let bits ← CodedKind.all.mapM (Strict.codedBits counts)
  return {
    rowCounts := counts
    codedBits := bits.toArray
    wideStrings := heapFlags &&& 1 ≠ 0
    wideGuids := heapFlags &&& 2 ≠ 0
    wideBlobs := heapFlags &&& 4 ≠ 0 }

variable (info : TableInfo)

def rowCount (table : TableId) : Run Nat :=
  item info.rowCounts table.number

def isWideRow (table : TableId) : Run Bool := do
  return 0xFFFF < (← info.rowCount table)

def isWideCoded (kind : CodedKind) : Run Bool := do
  return 16 < (← item info.codedBits (CodedKind.all.idxOf kind))

def isWide : Column → Run Bool
  | .word16 => .ok false
  | .word32 => .ok true
  | .string => .ok info.wideStrings
  | .guid => .ok info.wideGuids
  | .blob => .ok info.wideBlobs
  | .row table => info.isWideRow table
  | .coded kind => info.isWideCoded kind

def columnSize (column : Column) : Run Nat := do
  return if ← info.isWide column then 4 else 2

def rowSize (table : TableId) : Run Nat := do
  return (← table.columns.mapM info.columnSize).foldr (· + ·) 0

def scanColumn : (column : Column) → Scan column.Value
  | .word16 => Scan.word16
  | .word32 => Scan.word32
  | .string => Scan.index info.wideStrings
  | .guid => Scan.index info.wideGuids
  | .blob => Scan.index info.wideBlobs
  | .row table => do Scan.index (← info.isWideRow table)
  | .coded kind => do
    let wide ← info.isWideCoded kind
    liftM (decode kind (← Scan.index wide))

def scanValues : (columns : List Column) → Scan (Values columns)
  | [] => return ()
  | column :: rest => do return (← info.scanColumn column, ← scanValues rest)

end TableInfo

/-- The arrays hold what the sizes give for every table and every kind. -/
structure TableInfo.Represents (info : TableInfo) (sizes : TableSizes) : Prop where
  rowCount : ∀ table, info.rowCount table = .ok (sizes.rowCount table)
  codedBits : ∀ kind, item info.codedBits (CodedKind.all.idxOf kind) = .ok (sizes.codedBits kind)
  wideStrings : info.wideStrings = sizes.wideStrings
  wideGuids : info.wideGuids = sizes.wideGuids
  wideBlobs : info.wideBlobs = sizes.wideBlobs

/-- The count of digits of a number that fits is the length of its binary form. -/
theorem digits_eq_ok {width value : Nat} (fits : value < 2 ^ width) :
    digits width value = .ok (bitLength value) := by
  rw [digits, leadingZeros, difference_eq_ok (Nat.sub_le width _),
    Nat.sub_sub_self (bitLength_le_iff.mpr fits)]

/-- A count of rows that fits 32 bits has a width. -/
theorem rowBits_eq_ok {sizes : TableSizes} {table : TableId}
    (fits : sizes.rowCount table < 2 ^ 32) :
    rowBits (sizes.rowCount table) = .ok (sizes.rowBits table) := by
  rw [rowBits, TableSizes.rowBits]
  split
  · next empty =>
    rw [empty]
    rfl
  · next filled =>
    rw [digits_eq_ok fits, bitLength, if_neg filled, Nat.max_eq_right (Nat.le_add_left 1 _)]

/-- Every kind of coded index has candidates, and so a width of its tag. -/
theorem tagBits_eq_ok (kind : CodedKind) : tagBits kind = .ok kind.tagBits := by
  have candidates : 1 ≤ kind.candidates.length ∧ kind.candidates.length - 1 < 2 ^ 64 := by
    cases kind <;> decide
  rw [tagBits, difference_eq_ok candidates.1]
  exact digits_eq_ok candidates.2

/-- The mask of the tag is computed without going below zero. -/
theorem settles_decode (kind : CodedKind) (value : UInt32) :
    Settles (decode kind value) (kind.decode value) := by
  have positive : 1 ≤ 1 <<< kind.tagBits := by
    rw [Nat.one_shiftLeft]
    exact Nat.one_le_two_pow
  refine .access (tagBits_eq_ok kind) (.access (difference_eq_ok positive) ?_)
  rw [CodedKind.decode, Nat.one_shiftLeft, Nat.and_two_pow_sub_one_eq_mod]
  cases kind.candidates[value.toNat % 2 ^ kind.tagBits]? with
  | some table => exact .value _
  | none => exact .refused _

section Counts

variable {counts : Array Nat} {heapFlags : UInt8} (size : counts.size = TableId.slots)
  (fits : ∀ table, (TableSizes.ofCounts counts heapFlags).rowCount table < 2 ^ 32)

include size in
/-- The number of every known table is inside the counts. -/
theorem item_counts (table : TableId) :
    item counts table.number = .ok ((TableSizes.ofCounts counts heapFlags).rowCount table) := by
  have inside : table.number < counts.size := size ▸ table.number_lt
  have found : counts[table.number]? = some counts[table.number] :=
    Array.getElem?_eq_getElem inside
  rw [item_eq_ok found, TableSizes.ofCounts]
  simp only [found, Option.getD_some]

include fits in
/-- No table of a coded index has rows that need more than 32 bits. -/
theorem widestBits_le (tables : List TableId) :
    (tables.map (TableSizes.ofCounts counts heapFlags).rowBits).foldl max 0 ≤ 32 := by
  rw [foldl_max_le_iff, List.forall_mem_map]
  refine ⟨Nat.zero_le 32, fun table _ => ?_⟩
  exact (TableSizes.rowBits_le_iff _ (by decide)).mpr (fits table)

include size fits

/-- The width of a coded index is computed without an overflow. -/
theorem codedBits_eq_ok (kind : CodedKind) :
    codedBits counts kind = .ok ((TableSizes.ofCounts counts heapFlags).codedBits kind) := by
  have bits : (kind.candidates.mapM fun table => do rowBits (← item counts table.number)) =
      .ok (kind.candidates.map (TableSizes.ofCounts counts heapFlags).rowBits) := by
    refine mapM_eq_ok fun table _ => ?_
    rw [item_counts size table]
    exact rowBits_eq_ok (fits table)
  have widest := widestBits_le fits kind.candidates
  have tag := kind.tagBits_le
  rw [codedBits, bits, tagBits_eq_ok, TableSizes.codedBits]
  exact sum_eq_ok (by rw [wordLimit]; omega)

/-- The strict sizes are computed for all counts and stand for those of the model. -/
theorem ofCounts_represents : ∃ info, TableInfo.ofCounts counts heapFlags = .ok info ∧
    info.rowCounts = counts ∧ info.Represents (TableSizes.ofCounts counts heapFlags) := by
  have bits : CodedKind.all.mapM (codedBits counts) =
      .ok (CodedKind.all.map (TableSizes.ofCounts counts heapFlags).codedBits) :=
    mapM_eq_ok fun kind _ => codedBits_eq_ok size fits kind
  rw [TableInfo.ofCounts, bits]
  refine ⟨_, rfl, rfl, item_counts size, fun kind => ?_, rfl, rfl, rfl⟩
  cases kind <;> rfl

end Counts

namespace TableInfo.Represents

variable {info : TableInfo} {sizes : TableSizes} (represents : info.Represents sizes)
include represents

/-- Both find the same indexes of rows wide. -/
theorem isWideRow (table : TableId) : info.isWideRow table = .ok (sizes.isWideRow table) := by
  rw [TableInfo.isWideRow, represents.rowCount]
  rfl

/-- Both find the same coded indexes wide. -/
theorem isWideCoded (kind : CodedKind) : info.isWideCoded kind = .ok (sizes.isWideCoded kind) := by
  rw [TableInfo.isWideCoded, represents.codedBits]
  rfl

/-- The size of every column is found. -/
theorem columnSize (column : Column) : info.columnSize column = .ok (sizes.columnSize column) := by
  have wide : info.isWide column = .ok (sizes.isWide column) := by
    cases column with
    | word16 => rfl
    | word32 => rfl
    | string => exact congrArg Except.ok represents.wideStrings
    | guid => exact congrArg Except.ok represents.wideGuids
    | blob => exact congrArg Except.ok represents.wideBlobs
    | row table => exact represents.isWideRow table
    | coded kind => exact represents.isWideCoded kind
  rw [TableInfo.columnSize, wide]
  rfl

/-- The sizes of the columns of a row add up without an overflow. -/
theorem rowSize (table : TableId) : info.rowSize table = .ok (sizes.rowSize table) := by
  rw [TableInfo.rowSize, mapM_eq_ok fun column _ => represents.columnSize column]
  rfl

/-- The strict reader of a column does what the reader does. -/
theorem scanColumn {depth : Nat} (column : Column) :
    Follows depth (info.scanColumn column) (column.read sizes) := by
  cases column with
  | word16 => exact .word16
  | word32 => exact .word32
  | string =>
    rw [TableInfo.scanColumn, represents.wideStrings]
    exact .index _
  | guid =>
    rw [TableInfo.scanColumn, represents.wideGuids]
    exact .index _
  | blob =>
    rw [TableInfo.scanColumn, represents.wideBlobs]
    exact .index _
  | row table => exact .access (represents.isWideRow table) (.index _)
  | coded kind =>
    exact .access (represents.isWideCoded kind) ((Follows.index _).bind fun value =>
      .liftM (settles_decode kind value))

/-- The strict reader of the columns of a row does what the reader does. -/
theorem scanValues {depth : Nat} (columns : List Column) :
    Follows depth (info.scanValues columns) (readValues sizes columns) := by
  induction columns with
  | nil => exact .value ()
  | cons column rest ih =>
    exact (represents.scanColumn column).bind fun _ => ih.bind fun _ => .value _

end TableInfo.Represents

end ClrDecompiler.Strict
