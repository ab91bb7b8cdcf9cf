/-
This file reads the header of managed code and the root of the metadata with accesses that are
made without asking, and shows that they stay in range.
-/

import ClrDecompiler.Metadata.Root
import ClrDecompiler.Proofs.Strict.Image

namespace ClrDecompiler.Strict

open Metadata

def scanExtent : Scan Extent := do
  return { address := ← Scan.word32, size := ← Scan.word32 }

def scanCliHeader : Scan CliHeader := do
  let size ← Scan.word32
  if size.toNat ≠ CliHeader.byteCount then
    throw (.refused (.malformed (.cliHeaderSize size.toNat)))
  let majorRuntime ← Scan.word16
  let minorRuntime ← Scan.word16
  let metadata ← scanExtent
  if metadata.address = 0 then throw (.refused (.malformed .metadataAddressZero))
  if metadata.size = 0 then throw (.refused (.malformed .metadataSizeZero))
  if CliHeader.maxMetadataSize < metadata.size.toNat then
    throw (.refused (.malformed (.metadataSizeLimit metadata.size.toNat)))
  return {
    size, majorRuntime, minorRuntime, metadata
    flags := ← Scan.word32
    entryPointToken := ← Scan.word32
    resources := ← scanExtent
    strongName := ← scanExtent }

def readCliHeader (data : Bytes) : Run CliHeader :=
  if data.size < CliHeader.byteCount then .error (.refused .outOfBounds)
  else scanCliHeader.runFrom data 0

def readStreamHeader (data : Bytes) : Run StreamHeader := do
  if data.size < 9 then throw (.refused .outOfBounds)
  let names ← tail data 8
  match (names.toList.take (StreamHeader.maxNameLength + 1)).findIdx? (· = 0) with
  | none => throw (.refused (.malformed .streamName))
  | some stop =>
    let name ← slice names 0 stop
    let offset ← Scan.word32.runFrom data 0
    let size ← word32From data 4
    return { offset, size, name := StreamHeader.latinText name.toList }

def readDirectory (data : Bytes) : Nat → Nat → Run (List StreamHeader)
  | 0, _ => .ok []
  | count + 1, position => do
    if data.size ≤ position then throw (.refused .outOfBounds)
    let header ← readStreamHeader (← tail data position)
    let stop := header.offset.toNat + header.size.toNat
    if UInt32.size ≤ stop then
      throw (.refused (.malformed (.streamExtent header.offset.toNat header.size.toNat)))
    if data.size < stop then throw (.refused .outOfBounds)
    let next ← sum position header.encodedSize
    return header :: (← readDirectory data count next)

def readRoot (data : Bytes) : Run Root := do
  if data.size < 20 then throw (.refused .outOfBounds)
  let signature ← Scan.word32.runFrom data 0
  if signature ≠ Root.signatureValue then
    throw (.refused (.malformed (.rootSignature signature)))
  let versionLength ← (Scan.number 4).runFrom data 12
  let versionEnd ← checked (16 + versionLength) (.malformed (.versionLength versionLength))
  let directory ← sum versionEnd 4
  if data.size < directory then throw (.refused .outOfBounds)
  let version ← slice data 16 versionEnd
  let flags ← Scan.word16.runFrom data versionEnd
  let count ← (Scan.number 2).runFrom data (versionEnd + 2)
  if count = 0 ∨ Root.maxStreams < count then throw (.refused (.malformed (.streamCount count)))
  let streams ← readDirectory data count directory
  let majorVersion ← word16From data 4
  let minorVersion ← word16From data 6
  return {
    signature, majorVersion, minorVersion, flags, streams
    version := StreamHeader.latinText (version.toList.takeWhile (· ≠ 0)) }

/-- The data of the first stream with the name. The data is asked for the range. -/
def streamData? (root : Root) (data : Bytes) (name : String) : Run (Option Bytes) := do
  match root.streams.find? fun header => header.name == name with
  | none => return none
  | some header =>
    let stop ← sum header.offset.toNat header.size.toNat
    return if header.offset.toNat ≤ stop ∧ stop ≤ data.size then
      some (data.extract header.offset.toNat stop) else none

def tablesData? (root : Root) (data : Bytes) : Run (Option Bytes) := do
  match ← streamData? root data "#~" with
  | some found => return some found
  | none => streamData? root data "#-"

/-- A directory of the header is read alike. -/
theorem Follows.scanExtent {depth : Nat} : Follows depth scanExtent CliHeader.readExtent :=
  word32.bind fun _ => word32.bind fun _ => value _

/-- So is the whole header. -/
theorem Follows.scanCliHeader : Follows 0 scanCliHeader CliHeader.readFields :=
  word32.bind fun _ => guard <| word16.bind fun _ => word16.bind fun _ =>
    scanExtent.bind fun _ => guard <| guard <| guard <| word32.bind fun _ =>
      word32.bind fun _ => scanExtent.bind fun _ => scanExtent.bind fun _ => value _

/-- The strict reader of the header of managed code gives what the reader gives. -/
theorem settles_readCliHeader {data : Bytes} (addressable : IsAddressable data) :
    Settles (readCliHeader data) (CliHeader.read data) :=
  .ite Iff.rfl (fun _ => .refused _) fun _ => Follows.scanCliHeader.settles addressable 0

/-- A name of a stream takes at most four bytes for each of its characters. -/
theorem utf8ByteSize_latinText_le (bytes : List UInt8) :
    (StreamHeader.latinText bytes).utf8ByteSize ≤ 4 * bytes.length := by
  rw [StreamHeader.latinText]
  induction bytes with
  | nil => exact Nat.le_refl 0
  | cons first rest ih =>
    have one := (Char.ofNat first.toNat).utf8Size_le_four
    rw [List.map_cons, String.ofList_cons, String.utf8ByteSize_append,
      String.utf8ByteSize_singleton, List.length_cons]
    omega

/-- The name of a stream is short, and so is its entry. -/
theorem encodedSize_of_readAt {data : Bytes} {position : Nat} {header : StreamHeader}
    (run : StreamHeader.readAt data position = .ok header) : header.encodedSize < 256 := by
  obtain ⟨-, run⟩ := Outcome.of_guard_eq_ok run
  obtain ⟨offset, -, run⟩ := Outcome.of_bind_eq_ok run
  obtain ⟨size, -, run⟩ := Outcome.of_bind_eq_ok run
  obtain ⟨-, run⟩ := Outcome.of_guard_eq_ok run
  have window : (data.extract (position + 8)
      (position + 8 + StreamHeader.maxNameLength + 1)).toList.length ≤ 33 := by
    rw [Array.length_toList, Array.size_extract, StreamHeader.maxNameLength]
    omega
  cases run
  rw [StreamHeader.encodedSize, Bytes.alignUp]
  generalize (data.extract (position + 8) (position + 8 + StreamHeader.maxNameLength + 1)).toList =
    bytes at window
  have length := (List.takeWhile_sublist (l := bytes) (· ≠ 0)).length_le
  have text := utf8ByteSize_latinText_le (bytes.takeWhile (· ≠ 0))
  dsimp only
  omega

theorem toList_extract_take {α : Type} (items : Array α) (start count : Nat) :
    (items.extract start items.size).toList.take count =
      (items.extract start (start + count)).toList := by
  have whole : items.size - start = (items.toList.drop start).length := by
    rw [List.length_drop, Array.length_toList]
  rw [Array.toList_extract, Array.toList_extract, List.extract, List.extract, whole,
    List.take_length, Nat.add_sub_cancel_left]

/-- The header of a stream is read from the rest of the data without an overflow. -/
theorem settles_readStreamHeader {data : Bytes} (addressable : IsAddressable data) {position : Nat}
    (inside : position ≤ data.size) :
    Settles (readStreamHeader (data.extract position data.size))
      (StreamHeader.readAt data position) := by
  have size : (data.extract position data.size).size = data.size - position := by
    rw [Array.size_extract, Nat.min_self]
  refine .guard (by rw [size]; omega) fun enough => ?_
  obtain ⟨offset, offsetFound⟩ :=
    Bytes.exists_number UInt32.ofNat data position 4 (by omega)
  obtain ⟨extent, extentFound⟩ :=
    Bytes.exists_number UInt32.ofNat data (position + 4) 4 (by omega)
  refine .known offsetFound (.known extentFound ?_)
  refine .access (tail_eq_ok (by omega)) ?_
  have header := addressable.extract position data.size
  have firstWord : Scan.word32.runFrom (data.extract position data.size) 0 = .ok offset := by
    refine (settles_word32 header 0).eq_ok ?_
    rw [Bytes.word32At?_extract inside]
    exact offsetFound
  have secondWord : word32From (data.extract position data.size) 4 = .ok extent := by
    refine (settles_word32From header (by omega)).eq_ok ?_
    rw [Bytes.word32At?_extract inside]
    exact extentFound
  have names : (data.extract position data.size).extract 8 (data.extract position data.size).size =
      data.extract (position + 8) data.size := by
    rw [Array.extract_extract, size, Nat.min_eq_left (by omega), Nat.add_sub_cancel' inside]
  have window : ((data.extract (position + 8) data.size).toList.take
      (StreamHeader.maxNameLength + 1)) =
      (data.extract (position + 8) (position + 8 + StreamHeader.maxNameLength + 1)).toList :=
    toList_extract_take data (position + 8) (StreamHeader.maxNameLength + 1)
  rw [names, ← window]
  cases found : ((data.extract (position + 8) data.size).toList.take
      (StreamHeader.maxNameLength + 1)).findIdx? (· = 0) with
  | none =>
    rw [if_pos (all_ne_zero_iff.mpr found)]
    exact .refused _
  | some stop =>
    have named : ¬ ((data.extract (position + 8) data.size).toList.take
        (StreamHeader.maxNameLength + 1)).all (· ≠ 0) = true := by
      rw [all_ne_zero_iff, found]
      exact Option.some_ne_none stop
    obtain ⟨inside, taken⟩ := takeWhile_of_findIdx?_eq_some found
    rw [List.length_take, Array.length_toList] at inside
    rw [if_neg named, taken, List.take_take, Nat.min_eq_left (by omega), ← toList_extract_zero]
    refine .access (slice_eq_ok (Nat.zero_le stop) (by omega)) ?_
    exact .access firstWord (.access secondWord (.value _))

/-- The strict reader of the directory of streams gives what the reader gives. -/
theorem settles_readDirectory {data : Bytes} (addressable : IsAddressable data)
    (count position : Nat) :
    Settles (readDirectory data count position) (Root.readDirectory data count position) := by
  have limit : data.size < 2 ^ 63 := addressable
  induction count generalizing position with
  | zero => exact .value []
  | succ count ih =>
    refine .guard Iff.rfl fun inside => ?_
    have le : position ≤ data.size := Nat.le_of_not_le inside
    refine .access (tail_eq_ok le) ?_
    refine (settles_readStreamHeader addressable le).bind fun header run => ?_
    have short := encodedSize_of_readAt run
    refine .guard Iff.rfl fun _ => .guard Iff.rfl fun _ => ?_
    refine .access (sum_eq_ok (by rw [wordLimit]; omega)) ?_
    exact (ih _).bind fun others _ => .value _

/-- The strict reader of the root of the metadata gives what the reader gives. -/
theorem settles_readRoot {data : Bytes} (addressable : IsAddressable data) :
    Settles (readRoot data) (Root.read data) := by
  have limit : data.size < 2 ^ 63 := addressable
  refine .guard Iff.rfl fun enough => ?_
  refine (settles_word32 addressable 0).bind fun signature _ => .guard Iff.rfl fun _ => ?_
  refine (settles_number addressable 12 4).bind fun versionLength found => ?_
  have small : versionLength < 256 ^ 4 := Bytes.lt_of_numberAt? found
  rw [checked, if_pos (by rw [wordLimit]; omega)]
  refine .access rfl (.access (sum_eq_ok (by rw [wordLimit]; omega)) ?_)
  refine .guard Iff.rfl fun room => ?_
  refine .access (slice_eq_ok (by omega) (by omega)) ?_
  refine (settles_word16 addressable _).bind fun flags _ => ?_
  refine (settles_number addressable _ 2).bind fun count _ => .guard Iff.rfl fun _ => ?_
  refine (settles_readDirectory addressable _ _).bind fun streams _ => ?_
  refine (settles_word16From addressable (by omega)).bind fun major _ => ?_
  refine (settles_word16From addressable (by omega)).bind fun minor _ => ?_
  exact .value _

/-- The data of a stream are inside the metadata, so that they can be cut out. -/
theorem settles_streamData? (root : Root) (data : Bytes) (name : String) :
    Settles (streamData? root data name) (.ok (root.streamData? data name)) := by
  rw [streamData?, Root.streamData?]
  cases root.streams.find? fun header => header.name == name with
  | none => exact .value none
  | some header =>
    have offset := header.offset.toNat_lt
    have size := header.size.toNat_lt
    refine .access (sum_eq_ok (by rw [wordLimit]; omega)) ?_
    have same : (header.offset.toNat ≤ header.offset.toNat + header.size.toNat ∧
      header.offset.toNat + header.size.toNat ≤ data.size) ↔
        header.offset.toNat + header.size.toNat ≤ data.size :=
      and_iff_right (Nat.le_add_right _ _)
    simp only [same]
    exact .value _

/-- The tables are looked for under both of their names. -/
theorem settles_tablesData? (root : Root) (data : Bytes) :
    Settles (tablesData? root data) (.ok (root.tablesData? data)) := by
  refine .access ((settles_streamData? root data "#~").eq_ok rfl) ?_
  rw [Root.tablesData?]
  cases root.streamData? data "#~" with
  | none => exact settles_streamData? root data "#-"
  | some found => exact .value (some found)

end ClrDecompiler.Strict
