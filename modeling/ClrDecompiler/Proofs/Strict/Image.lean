/-
This file finds the parts of an image and the entries of its debug directory with accesses that
are made without asking, and shows that they stay in range.
-/

import ClrDecompiler.Image.Assembly
import ClrDecompiler.Proofs.Strict.Number
import Mathlib.Data.List.TakeWhile

namespace ClrDecompiler

section Zeros

variable {bytes : List UInt8}

/-- What stands before the first zero byte is found by its index. -/
theorem takeWhile_of_findIdx?_eq_some {stop : Nat}
    (found : bytes.findIdx? (· = 0) = some stop) :
    stop ≤ bytes.length ∧ bytes.takeWhile (· ≠ 0) = bytes.take stop := by
  induction bytes generalizing stop with
  | nil => cases found
  | cons byte rest ih =>
    rw [List.findIdx?_cons] at found
    by_cases zero : byte = 0
    · rw [if_pos (decide_eq_true zero)] at found
      cases found
      exact ⟨Nat.zero_le _, by simp [zero]⟩
    · rw [if_neg (by simpa using zero)] at found
      obtain ⟨before, foundBefore, rfl⟩ := Option.map_eq_some_iff.mp found
      obtain ⟨inside, taken⟩ := ih foundBefore
      refine ⟨Nat.succ_le_succ inside, ?_⟩
      rw [List.takeWhile_cons_of_pos (by simpa using zero), taken, List.take_succ_cons]

theorem takeWhile_of_findIdx?_eq_none (missing : bytes.findIdx? (· = 0) = none) :
    bytes.takeWhile (· ≠ 0) = bytes := by
  rw [List.findIdx?_eq_none_iff] at missing
  exact List.takeWhile_eq_self_iff.mpr fun byte member => by simpa using missing byte member

theorem all_ne_zero_iff : bytes.all (· ≠ 0) = true ↔ bytes.findIdx? (· = 0) = none := by
  simp [List.findIdx?_eq_none_iff]

theorem toList_extract_zero {α : Type} (items : Array α) (stop : Nat) :
    (items.extract 0 stop).toList = items.toList.take stop := by
  rw [Array.toList_extract, List.extract, Nat.sub_zero, List.drop_zero]

end Zeros

namespace Strict

open Image

/-- An image that lies in memory and whose sections have places of 32 bits. -/
structure IsMapped (image : Assembly) : Prop where
  data : IsAddressable image.data
  places : ∀ part ∈ image.sections, part.rawOffset < UInt32.size

/-- The end of a slice is compared with the size of the data before the slice is taken. -/
def sliceOrRefuse (data : Bytes) (offset size : Nat) : Run Bytes := do
  let stop ← checked (offset + size) .outOfBounds
  if data.size < stop then throw (.refused .outOfBounds)
  slice data offset stop

def offsetIn (address : Nat) : List Section → Run Nat
  | [] => .error (.refused (.malformed (.addressUnmapped address)))
  | part :: rest =>
    let stop := part.virtualAddress + max part.virtualSize part.rawSize
    if UInt32.size ≤ stop then
      .error (.refused (.malformed (.sectionOverflow part.virtualAddress part.virtualSize)))
    else if part.virtualAddress ≤ address ∧ address < stop then do
      sum (← difference address part.virtualAddress) part.rawOffset
    else offsetIn address rest

def offsetOf (image : Assembly) (address : Nat) : Run Nat :=
  if UInt32.size ≤ address then .error (.refused (.malformed (.addressTooLarge address)))
  else offsetIn address image.sections

def readCodeView (data : Bytes) : Run (Option CodeView) := do
  if data.size < 4 then return none
  let signature ← Scan.word32.runFrom data 0
  if signature ≠ CodeView.signature then return none
  if data.size < 24 then throw (.refused .outOfBounds)
  let guid ← copy 16 (← slice data 4 20)
  let age ← word32From data 20
  let rest ← tail data 24
  let path ← match rest.toList.findIdx? (· = 0) with
    | some stop => slice rest 0 stop
    | none => pure rest
  return some { guid, age, path := Utf8.decodeLossy path.toList }

def scanRecord : Scan DebugEntry := do
  return {
    timestamp := ← Scan.word32
    majorVersion := ← Scan.word16
    minorVersion := ← Scan.word16
    type := ← Scan.word32
    size := ← Scan.word32
    address := ← Scan.word32
    offset := ← Scan.word32
    codeView := none }

def readEntry (record image : Bytes) : Run DebugEntry := do
  let entry ← scanRecord.runFrom record 4
  if entry.type = DebugEntry.codeViewType then
    let data ← sliceOrRefuse image entry.offset.toNat entry.size.toNat
    return { entry with codeView := ← readCodeView data }
  else return entry

def readEntries (directory image : Bytes) : Run (List DebugEntry) :=
  if directory.size % DebugEntry.byteCount ≠ 0 then
    .error (.refused (.malformed (.debugDirectorySize directory.size)))
  else (List.range (directory.size / DebugEntry.byteCount)).mapM fun index => do
    let start := index * DebugEntry.byteCount
    readEntry (← slice directory start (start + DebugEntry.byteCount)) image

def debugEntries (image : Assembly) : Run (List DebugEntry) := do
  match image.directory? Container.debugIndex with
  | none => return []
  | some found =>
    let offset ← offsetOf image found.address.toNat
    readEntries (← sliceOrRefuse image.data offset found.size.toNat) image.data

/-- A part of an image is cut out or refused, without an overflow of its end. -/
theorem settles_sliceOrRefuse {data : Bytes} (addressable : IsAddressable data)
    (offset size : Nat) :
    Settles (sliceOrRefuse data offset size) (Bytes.orOutOfBounds (data.slice? offset size)) := by
  have word : data.size < wordLimit := Nat.lt_trans addressable (by decide)
  rw [Bytes.slice?]
  by_cases inside : offset + size ≤ data.size
  · rw [if_pos inside]
    refine .checked word (by omega) ?_
    rw [if_neg (Nat.not_lt_of_le inside), slice_eq_ok (Nat.le_add_right offset size) inside]
    exact .value _
  · rw [if_neg inside]
    refine .checked word (fun _ => rfl) ?_
    rw [if_pos (Nat.lt_of_not_le inside)]
    exact .refused .outOfBounds

/-- The sections are searched without an overflow. -/
theorem settles_offsetIn {address : Nat} (small : address < UInt32.size) {sections : List Section}
    (places : ∀ part ∈ sections, part.rawOffset < UInt32.size) :
    Settles (offsetIn address sections) (Assembly.offsetIn address sections) := by
  induction sections with
  | nil => exact .refused _
  | cons part rest ih =>
    rw [List.forall_mem_cons] at places
    rw [offsetIn, Assembly.offsetIn]
    split
    · exact .refused _
    split
    · next inside =>
      have place : part.rawOffset < 2 ^ 32 := places.1
      have below : address < 2 ^ 32 := small
      refine .access (difference_eq_ok inside.1) ?_
      rw [sum_eq_ok (by rw [wordLimit]; omega)]
      exact .value _
    · exact ih places.2

/-- Every address has the offset of the model, or none. -/
theorem settles_offsetOf {image : Assembly} (mapped : IsMapped image) (address : Nat) :
    Settles (offsetOf image address) (image.offset address) := by
  rw [offsetOf, Assembly.offset]
  split
  · exact .refused _
  · next small => exact settles_offsetIn (Nat.lt_of_not_le small) mapped.places

/-- The strict reader of a record of debug information never leaves its data. -/
theorem settles_readCodeView {data : Bytes} (addressable : IsAddressable data) :
    Settles (readCodeView data) (CodeView.read? data) := by
  refine .ite Iff.rfl (fun _ => .value none) fun _ => ?_
  refine (settles_word32 addressable 0).bind fun signature _ => ?_
  refine .ite Iff.rfl (fun _ => .value none) fun _ => ?_
  refine .guard Iff.rfl fun enough => ?_
  have size : 24 ≤ data.size := Nat.le_of_not_lt enough
  refine .access (slice_eq_ok (by decide) (by omega)) ?_
  refine .access (copy_eq_ok (by rw [Array.size_extract]; omega)) ?_
  refine (settles_word32From addressable (by omega)).bind fun age _ => ?_
  refine .access (tail_eq_ok size) ?_
  dsimp only
  cases found : (data.extract 24 data.size).toList.findIdx? (· = 0) with
  | none =>
    rw [takeWhile_of_findIdx?_eq_none found]
    exact .value _
  | some stop =>
    obtain ⟨inside, taken⟩ := takeWhile_of_findIdx?_eq_some found
    rw [Array.length_toList] at inside
    refine .access (slice_eq_ok (Nat.zero_le stop) inside) ?_
    rw [taken, ← toList_extract_zero]
    exact .value _

theorem runAt_number_of_le {data : Bytes} {position width : Nat}
    (inside : position + width ≤ data.size) : (Read.number width).runAt data position =
      (.ok (Bytes.ofLittleEndian (data.extract position (position + width)).toList),
        position + width) := by
  simp only [Read.number, Read.bytes, Read.runAt_bind, Read.runAt_get, Read.runAt_read,
    Bytes.slice?, if_pos inside, Read.runAt_set, Read.runAt_pure]

/-- A record is the same in the part of the directory that it takes. -/
theorem runAt_readRecord_extract {directory : Bytes} {start : Nat}
    (inside : start + DebugEntry.byteCount ≤ directory.size) :
    (DebugEntry.readRecord.runAt
      (directory.extract start (start + DebugEntry.byteCount)) 4).1 =
      (DebugEntry.readRecord.runAt directory (start + 4)).1 := by
  rw [DebugEntry.byteCount] at *
  have size : (directory.extract start (start + 28)).size = 28 := by
    rw [Array.size_extract]
    omega
  have part (position width : Nat) (within : position + width ≤ 28) :
      (directory.extract start (start + 28)).extract position (position + width) =
        directory.extract (start + position) (start + position + width) := by
    rw [Array.extract_extract, Nat.min_eq_left (by omega), Nat.add_assoc]
  simp (disch := omega) only [DebugEntry.readRecord, Read.word32, Read.word16, map_eq_pure_bind,
    Read.runAt_bind, Read.runAt_pure, runAt_number_of_le, part]

/-- A debug entry is read alike, field by field. -/
theorem Follows.scanRecord : Follows 0 scanRecord DebugEntry.readRecord :=
  word32.bind fun _ => word16.bind fun _ => word16.bind fun _ => word32.bind fun _ =>
    word32.bind fun _ => word32.bind fun _ => word32.bind fun _ => value _

/-- An entry of the debug directory is read from its own bytes. -/
theorem settles_readEntry {directory image : Bytes} (addressable : IsAddressable directory)
    (mapped : IsAddressable image) {start : Nat}
    (inside : start + DebugEntry.byteCount ≤ directory.size) :
    Settles (readEntry (directory.extract start (start + DebugEntry.byteCount)) image)
      (DebugEntry.readAt directory image start) := by
  have record :=
    Follows.scanRecord.settles (addressable.extract start (start + DebugEntry.byteCount)) 4
  rw [runAt_readRecord_extract inside] at record
  refine record.bind fun entry _ => .ite Iff.rfl (fun _ => ?_) fun _ => .value entry
  refine (settles_sliceOrRefuse mapped _ _).bind fun data cut => ?_
  exact (settles_readCodeView (mapped.of_slice? cut)).bind fun codeView _ => .value _

/-- All entries of the debug directory are read from their own bytes. -/
theorem settles_readEntries {directory image : Bytes} (addressable : IsAddressable directory)
    (mapped : IsAddressable image) :
    Settles (readEntries directory image) (DebugEntry.readAll directory image) := by
  rw [readEntries, DebugEntry.readAll]
  split
  · exact .refused _
  refine .mapM fun index member => ?_
  have inside : index * DebugEntry.byteCount + DebugEntry.byteCount ≤ directory.size := by
    have below := List.mem_range.mp member
    rw [← Nat.succ_mul]
    exact (Nat.le_div_iff_mul_le (by decide)).mp below
  exact .access (slice_eq_ok (Nat.le_add_right _ _) inside)
    (settles_readEntry addressable mapped inside)

/-- The debug directory of an image is found and read as in the model. -/
theorem settles_debugEntries {image : Assembly} (mapped : IsMapped image) :
    Settles (debugEntries image) image.debugEntries := by
  rw [debugEntries, Assembly.debugEntries]
  cases image.directory? Container.debugIndex with
  | none => exact .value []
  | some found =>
    refine (settles_offsetOf mapped _).bind fun offset _ => ?_
    refine (settles_sliceOrRefuse mapped.data _ _).bind fun directory cut => ?_
    exact settles_readEntries (mapped.data.of_slice? cut) mapped.data

end Strict

end ClrDecompiler
