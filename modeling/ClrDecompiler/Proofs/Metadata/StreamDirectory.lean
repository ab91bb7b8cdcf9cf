/-
This file walks the directory of the streams as it is stored, with names of any bytes. The reader
predicts the size of an entry from the decoded name, which takes two bytes for every byte above
the ASCII range.
-/

import ClrDecompiler.Proofs.Bytes.Recognition
import ClrDecompiler.Proofs.Metadata.RootRoundTrip
import Mathlib.Algebra.GroupWithZero.Nat

namespace ClrDecompiler.Metadata

open Bytes

/-- An entry of the directory as it is stored. Its name is any bytes that a zero byte can end. -/
structure DirectoryEntry where
  offset : UInt32
  size : UInt32
  name : List UInt8
  short : name.length ≤ StreamHeader.maxNameLength
  nonzero : ∀ byte ∈ name, byte ≠ 0

namespace DirectoryEntry

def header (entry : DirectoryEntry) : StreamHeader :=
  ⟨entry.offset, entry.size, StreamHeader.latinText entry.name⟩

/-- The name is ended by a zero byte and padded to a multiple of four. -/
def bytes (entry : DirectoryEntry) : List UInt8 :=
  littleEndian 4 entry.offset.toNat ++
    (littleEndian 4 entry.size.toNat ++ padded (entry.name ++ [0]))

/-- The number of bytes that the entry occupies. -/
def occupied (entry : DirectoryEntry) : Nat :=
  8 + alignUp 4 (entry.name.length + 1)

/-- The number of bytes in the name that are no ASCII characters. -/
def wide (entry : DirectoryEntry) : Nat :=
  entry.name.countP (0x80 ≤ ·)

/-- The padding has room for a second byte of each character above the ASCII range. -/
def IsExact (entry : DirectoryEntry) : Prop :=
  entry.name.length % 4 + entry.wide < 4

instance (entry : DirectoryEntry) : Decidable entry.IsExact :=
  inferInstanceAs (Decidable (_ < _))

/-- The entry stands in the data at a position, up to the zero byte behind its name. -/
def StoredAt (entry : DirectoryEntry) (data : Bytes) (position : Nat) : Prop :=
  ∃ before after : List UInt8, data.toList = before ++ (littleEndian 4 entry.offset.toNat ++
    (littleEndian 4 entry.size.toNat ++ (entry.name ++ 0 :: after))) ∧ before.length = position

/-- An entry takes the bytes that it occupies. -/
theorem length_bytes (entry : DirectoryEntry) : entry.bytes.length = entry.occupied := by
  simp [bytes, occupied, padded_length]
  omega

/-- An entry is stored where its bytes stand. -/
theorem storedAt_middle {data : Bytes} {before after : List UInt8} (entry : DirectoryEntry)
    (whole : data.toList = before ++ (entry.bytes ++ after)) :
    entry.StoredAt data before.length := by
  refine ⟨before, List.replicate (alignUp 4 (entry.name ++ [0]).length - (entry.name ++ [0]).length)
    0 ++ after, ?_, rfl⟩
  rw [whole, bytes, padded]
  simp only [List.append_assoc, List.cons_append, List.nil_append]

/-- Every character of the name takes one byte, or two if it is above the ASCII range. -/
theorem utf8ByteSize_latinText (name : List UInt8) :
    (StreamHeader.latinText name).utf8ByteSize = name.length + name.countP (0x80 ≤ ·) := by
  rw [← length_encode, Utf8.toList_encode, StreamHeader.latinText, String.toList_ofList]
  induction name with
  | nil => rfl
  | cons byte rest ih =>
    have value : (Char.ofNat byte.toNat).val.toNat = byte.toNat := by
      have scalar : byte.toNat.isValidChar := .inl (Nat.lt_trans byte.toNat_lt (by decide))
      rw [Char.ofNat, dif_pos scalar]
      rfl
    have size : (String.utf8EncodeChar (Char.ofNat byte.toNat)).length =
        1 + if 0x80 ≤ byte then 1 else 0 := by
      have small := byte.toNat_lt
      have above : 0x80 ≤ byte ↔ ¬ byte.toNat ≤ 127 := by
        rw [UInt8.le_iff_toNat_le, Nat.not_le]
        rfl
      rw [String.utf8EncodeChar, value]
      by_cases low : byte.toNat ≤ 127
      · simp [above, low]
      · have two : byte.toNat ≤ 2047 := by omega
        simp [above, low, two]
    rw [List.map_cons, List.flatMap_cons, List.length_append, ih, size, List.countP_cons,
      List.length_cons]
    simp only [decide_eq_true_eq]
    omega

/-- The header counts two bytes for a character from 128 on. -/
theorem encodedSize_header (entry : DirectoryEntry) :
    entry.header.encodedSize = 8 + alignUp 4 (entry.name.length + entry.wide + 1) := by
  rw [StreamHeader.encodedSize, header, utf8ByteSize_latinText, wide]

/-- An entry is never counted for less than it takes. -/
theorem occupied_le (entry : DirectoryEntry) : entry.occupied ≤ entry.header.encodedSize := by
  rw [encodedSize_header, occupied, alignUp, alignUp]
  omega

/-- The predicted size is right exactly if the second bytes fit into the padding, and otherwise
it is too large by a multiple of four. -/
theorem encodedSize_eq_occupied_iff (entry : DirectoryEntry) :
    entry.header.encodedSize = entry.occupied ↔ entry.IsExact := by
  rw [encodedSize_header, occupied, IsExact, alignUp, alignUp]
  omega

/-- An entry that is not counted exactly is counted for four bytes more at least. -/
theorem occupied_add_four_le {entry : DirectoryEntry} (inexact : ¬ entry.IsExact) :
    entry.occupied + 4 ≤ entry.header.encodedSize := by
  rw [IsExact] at inexact
  rw [encodedSize_header, occupied, alignUp, alignUp]
  omega

/-- The stored name and zero byte as the reader's window shows them. -/
theorem toList_window {data : Bytes} {entry : DirectoryEntry} {before after : List UInt8}
    (whole : data.toList = before ++ (entry.name ++ 0 :: after)) :
    (data.extract before.length (before.length + StreamHeader.maxNameLength + 1)).toList =
      entry.name ++ 0 :: after.take (StreamHeader.maxNameLength - entry.name.length) := by
  have short := entry.short
  have count : before.length + StreamHeader.maxNameLength + 1 - before.length =
      entry.name.length + (StreamHeader.maxNameLength - entry.name.length + 1) := by omega
  rw [Array.toList_extract, List.extract_eq_take_drop, whole, List.drop_left, count,
    List.take_length_add_append, List.take_succ_cons]

/-- An entry is read wherever it stands. -/
theorem StoredAt.readAt {entry : DirectoryEntry} {data : Bytes} {position : Nat}
    (stored : entry.StoredAt data position) :
    StreamHeader.readAt data position = .ok entry.header := by
  obtain ⟨before, after, whole, rfl⟩ := stored
  have offsetRead := word32At?_middle entry.offset.toNat_lt whole
  have split : data.toList = (before ++ littleEndian 4 entry.offset.toNat) ++
      (littleEndian 4 entry.size.toNat ++ (entry.name ++ 0 :: after)) := by
    rw [whole, List.append_assoc]
  have sizeRead := word32At?_middle entry.size.toNat_lt split
  rw [← List.append_assoc] at split
  have window := toList_window split
  simp only [List.length_append, littleEndian_length, Nat.add_assoc, Nat.reduceAdd]
    at sizeRead window
  have enough : ¬ data.size < before.length + 9 := by
    rw [← Array.length_toList, whole]
    simp only [List.length_append, littleEndian_length, List.length_cons]
    omega
  have ended (rest : List UInt8) : (entry.name ++ 0 :: rest).all (· ≠ 0) = false := by
    rw [List.all_append, List.all_cons]
    simp
  have name (rest : List UInt8) : (entry.name ++ 0 :: rest).takeWhile (· ≠ 0) = entry.name := by
    rw [List.takeWhile_append_of_pos fun byte member => decide_eq_true (entry.nonzero byte member)]
    simp
  rw [StreamHeader.readAt]
  simp only [if_neg enough, offsetRead, sizeRead, orOutOfBounds, Nat.add_assoc, window, ended, name,
    UInt32.ofNat_toNat]
  rfl

/-- Bytes that are not all different from zero are ended by the first zero byte. -/
theorem split_at_zero {window : List UInt8} (ended : window.all (· ≠ 0) = false) :
    ∃ name after, window = name ++ 0 :: after ∧ ∀ byte ∈ name, byte ≠ 0 := by
  induction window with
  | nil => cases ended
  | cons byte rest ih =>
    by_cases zero : byte = 0
    · exact ⟨[], rest, by rw [zero]; rfl, by simp⟩
    · have later : rest.all (· ≠ 0) = false := by simpa [zero] using ended
      obtain ⟨name, after, rfl, nonzero⟩ := ih later
      refine ⟨byte :: name, after, rfl, ?_⟩
      rw [List.forall_mem_cons]
      exact ⟨zero, nonzero⟩

/-- Four bytes are always a number. -/
theorem exists_word32 {data : Bytes} {before rest : List UInt8}
    (whole : data.toList = before ++ rest)
    (room : before.length + 4 ≤ data.size) :
    ∃ (number : UInt32) (after : List UInt8), rest = littleEndian 4 number.toNat ++ after := by
  have inside : 4 ≤ rest.length := by
    rw [← Array.length_toList, whole, List.length_append] at room
    omega
  have length : (rest.take 4).length = 4 := List.length_take_of_le inside
  have digits := littleEndian_ofLittleEndian (rest.take 4)
  have small := ofLittleEndian_lt (rest.take 4)
  rw [length] at digits small
  refine ⟨UInt32.ofNat (ofLittleEndian (rest.take 4)), rest.drop 4, ?_⟩
  rw [UInt32.toNat_ofNat_of_lt' small, digits, List.take_append_drop]

/-- Whatever has a zero byte in the reader's window is an entry. -/
theorem exists_storedAt {data : Bytes} {position : Nat} (room : position + 9 ≤ data.size)
    (ended : (data.extract (position + 8)
      (position + 8 + StreamHeader.maxNameLength + 1)).toList.all (· ≠ 0) = false) :
    ∃ entry : DirectoryEntry, entry.StoredAt data position := by
  obtain ⟨before, rest, whole, rfl⟩ : ∃ before rest, data.toList = before ++ rest ∧
      before.length = position := by
    refine ⟨data.toList.take position, _, (List.take_append_drop position _).symm, ?_⟩
    rw [List.length_take, Array.length_toList]
    omega
  obtain ⟨offset, rest, rfl⟩ := exists_word32 whole (by omega)
  have split := whole
  rw [← List.append_assoc] at split
  obtain ⟨size, rest, rfl⟩ := exists_word32 split (by simp; omega)
  rw [← List.append_assoc] at split
  have place : ((before ++ littleEndian 4 offset.toNat) ++ littleEndian 4 size.toNat).length =
      before.length + 8 := by simp
  rw [Array.toList_extract, List.extract_eq_take_drop, split, ← place, List.drop_left,
    Nat.add_assoc _ StreamHeader.maxNameLength, Nat.add_sub_cancel_left] at ended
  obtain ⟨name, after, shown, nonzero⟩ := split_at_zero ended
  have short : name.length ≤ StreamHeader.maxNameLength := by
    have bound := List.length_take_le (StreamHeader.maxNameLength + 1) rest
    rw [shown, List.length_append, List.length_cons] at bound
    omega
  refine ⟨⟨offset, size, name, short, nonzero⟩, before,
    after ++ rest.drop (StreamHeader.maxNameLength + 1), ?_, rfl⟩
  rw [whole, ← List.cons_append, ← List.append_assoc name, ← shown, List.take_append_drop]

/-- The reader accepts exactly the entries. -/
theorem readAt_eq_ok_iff {data : Bytes} {position : Nat} {header : StreamHeader} :
    StreamHeader.readAt data position = .ok header ↔
      ∃ entry : DirectoryEntry, entry.StoredAt data position ∧ entry.header = header := by
  constructor
  · intro read
    have run := read
    unfold StreamHeader.readAt at run
    obtain ⟨room, run⟩ := Outcome.of_guard_eq_ok run
    obtain ⟨offset, -, run⟩ := Outcome.of_bind_eq_ok run
    obtain ⟨size, -, run⟩ := Outcome.of_bind_eq_ok run
    obtain ⟨ended, -⟩ := Outcome.of_guard_eq_ok run
    obtain ⟨entry, stored⟩ := exists_storedAt (Nat.le_of_not_lt room)
      (Bool.eq_false_iff.mpr ended)
    have same := stored.readAt
    rw [read] at same
    cases same
    exact ⟨entry, stored, rfl⟩
  · rintro ⟨entry, stored, rfl⟩
    exact stored.readAt

/-- An entry is stored inside the data. -/
theorem StoredAt.lt {entry : DirectoryEntry} {data : Bytes} {position : Nat}
    (stored : entry.StoredAt data position) : position < data.size := by
  obtain ⟨before, after, whole, rfl⟩ := stored
  rw [← Array.length_toList, whole, List.length_append, List.length_append, littleEndian_length]
  omega

/-- The zero byte behind the name. -/
theorem StoredAt.getElem? {entry : DirectoryEntry} {data : Bytes} {position : Nat}
    (stored : entry.StoredAt data position) :
    data.toList[position + 8 + entry.name.length]? = some 0 := by
  obtain ⟨before, after, whole, rfl⟩ := stored
  have place : before.length + 8 + entry.name.length = (before ++ (littleEndian 4
      entry.offset.toNat ++ (littleEndian 4 entry.size.toNat ++ entry.name))).length := by
    simp only [List.length_append, littleEndian_length]
    omega
  have split : data.toList = (before ++ (littleEndian 4 entry.offset.toNat ++
      (littleEndian 4 entry.size.toNat ++ entry.name))) ++ 0 :: after := by
    rw [whole]
    simp only [List.append_assoc]
  rw [place, split]
  simp

theorem length_name_of_header {entry other : DirectoryEntry} (same : entry.header = other.header) :
    entry.name.length = other.name.length := by
  have names := congrArg (fun header => header.name.toList.length) same
  simpa [header, StreamHeader.latinText] using names

/-- The stream of the entry lies in the image. -/
def IsInside (entry : DirectoryEntry) (data : Bytes) : Prop :=
  entry.offset.toNat + entry.size.toNat ≤ data.size ∧
    entry.offset.toNat + entry.size.toNat < UInt32.size

instance (entry : DirectoryEntry) (data : Bytes) : Decidable (entry.IsInside data) :=
  inferInstanceAs (Decidable (_ ∧ _))

end DirectoryEntry

namespace Root

/-- The reader goes on behind the predicted size of an entry. -/
theorem readDirectory_stored {data : Bytes} {position : Nat} {entry : DirectoryEntry}
    (stored : entry.StoredAt data position) (inside : entry.IsInside data) (count : Nat) :
    readDirectory data (count + 1) position =
      (readDirectory data count (position + entry.header.encodedSize)).map (entry.header :: ·) := by
  have present : ¬ data.size ≤ position := Nat.not_le_of_lt stored.lt
  have fits : ¬ UInt32.size ≤ entry.header.offset.toNat + entry.header.size.toNat :=
    Nat.not_le_of_lt inside.2
  have within : ¬ data.size < entry.header.offset.toNat + entry.header.size.toNat :=
    Nat.not_lt_of_le inside.1
  simp only [readDirectory, if_neg present, stored.readAt, bind, Except.bind, if_neg fits,
    if_neg within]
  cases readDirectory data count (position + entry.header.encodedSize) <;> rfl

section

variable {data : Bytes} {before after : List UInt8} {entries : List DirectoryEntry}

/-- The reader stays in step while the predicted sizes are right. -/
theorem readDirectory_exact (exact : ∀ entry ∈ entries, entry.IsExact)
    (inside : ∀ entry ∈ entries, entry.IsInside data)
    (whole : data.toList = before ++ (entries.flatMap DirectoryEntry.bytes ++ after))
    (count : Nat) :
    readDirectory data (entries.length + count) before.length =
      (readDirectory data count (before ++ entries.flatMap DirectoryEntry.bytes).length).map
        (entries.map DirectoryEntry.header ++ ·) := by
  -- Every entry moves into the bytes before the position, by as much as the reader predicts.
  induction entries generalizing before with
  | nil =>
    rw [List.length_nil, Nat.zero_add, List.flatMap_nil, List.append_nil]
    cases readDirectory data count before.length <;> rfl
  | cons entry rest ih =>
    rw [List.forall_mem_cons] at exact inside
    rw [List.flatMap_cons, List.append_assoc] at whole
    have split := whole
    rw [← List.append_assoc] at split
    have next : before.length + entry.header.encodedSize = (before ++ entry.bytes).length := by
      rw [List.length_append, entry.length_bytes, entry.encodedSize_eq_occupied_iff.mpr exact.1]
    have count : (entry :: rest).length + count = rest.length + count + 1 := by simp; omega
    rw [count, readDirectory_stored (entry.storedAt_middle whole) inside.1, next,
      ih exact.2 inside.2 split, List.flatMap_cons, List.append_assoc]
    cases readDirectory data _ _ <;> rfl

/-- Where the last entry is predicted to end does not matter. -/
theorem readDirectory_entries {last : DirectoryEntry} (exact : ∀ entry ∈ entries, entry.IsExact)
    (inside : ∀ entry ∈ entries ++ [last], entry.IsInside data)
    (whole : data.toList =
      before ++ ((entries ++ [last]).flatMap DirectoryEntry.bytes ++ after)) :
    readDirectory data (entries ++ [last]).length before.length =
      .ok ((entries ++ [last]).map DirectoryEntry.header) := by
  rw [List.flatMap_append, List.flatMap_singleton, List.append_assoc] at whole
  have split := whole
  rw [← List.append_assoc] at split
  rw [List.length_append, List.length_singleton, readDirectory_exact exact
    (fun entry member => inside entry (List.mem_append_left _ member)) whole 1,
    readDirectory_stored (last.storedAt_middle split) (inside last (by simp)), List.map_append]
  rfl

/-- The directory is read header by header, each counted from the one before. -/
theorem of_readDirectory_cons {count position : Nat} {header : StreamHeader}
    {headers : List StreamHeader}
    (read : readDirectory data (count + 1) position = .ok (header :: headers)) :
    StreamHeader.readAt data position = .ok header ∧
      readDirectory data count (position + header.encodedSize) = .ok headers := by
  unfold readDirectory at read
  obtain ⟨-, read⟩ := Outcome.of_guard_eq_ok read
  obtain ⟨found, first, read⟩ := Outcome.of_bind_eq_ok read
  obtain ⟨-, read⟩ := Outcome.of_guard_eq_ok read
  obtain ⟨-, read⟩ := Outcome.of_guard_eq_ok read
  obtain ⟨others, later, same⟩ := Outcome.of_bind_eq_ok read
  cases same
  exact ⟨first, later⟩

/-- The last header was read where the sizes of the ones before it lead. -/
theorem readAt_of_readDirectory {position : Nat} {headers : List StreamHeader} {last : StreamHeader}
    (read : readDirectory data (headers ++ [last]).length position = .ok (headers ++ [last])) :
    StreamHeader.readAt data (position + (headers.map StreamHeader.encodedSize).sum) =
      .ok last := by
  induction headers generalizing position with
  | nil => exact (of_readDirectory_cons read).1
  | cons header rest ih =>
    have later := ih (of_readDirectory_cons read).2
    rwa [Nat.add_assoc] at later

/-- One prediction that is wrong leads at least four bytes too far. -/
theorem sum_occupied_add_four_le (inexact : ∃ entry ∈ entries, ¬ entry.IsExact) :
    (entries.flatMap DirectoryEntry.bytes).length + 4 ≤
      ((entries.map DirectoryEntry.header).map StreamHeader.encodedSize).sum := by
  have atLeast (entries : List DirectoryEntry) : (entries.flatMap DirectoryEntry.bytes).length ≤
      ((entries.map DirectoryEntry.header).map StreamHeader.encodedSize).sum := by
    induction entries with
    | nil => exact Nat.le_refl 0
    | cons entry rest ih =>
      have first := entry.occupied_le
      simp only [List.flatMap_cons, List.length_append, List.map_cons, List.sum_cons,
        entry.length_bytes]
      omega
  induction entries with
  | nil => simp at inexact
  | cons entry rest ih =>
    simp only [List.flatMap_cons, List.length_append, List.map_cons, List.sum_cons,
      entry.length_bytes]
    obtain ⟨wrong, member, isWrong⟩ := inexact
    cases member with
    | head =>
      have first := DirectoryEntry.occupied_add_four_le isWrong
      have others := atLeast rest
      omega
    | tail _ member =>
      have first := entry.occupied_le
      have others := ih ⟨wrong, member, isWrong⟩
      omega

/-- Where no zero byte follows the directory, a reader out of step cannot find the last name. -/
theorem exact_of_readDirectory {last : DirectoryEntry} (filled : 0 ∉ after)
    (whole : data.toList =
      before ++ ((entries ++ [last]).flatMap DirectoryEntry.bytes ++ after))
    (read : readDirectory data (entries ++ [last]).length before.length =
      .ok ((entries ++ [last]).map DirectoryEntry.header)) :
    ∀ entry ∈ entries, entry.IsExact := by
  by_contra inexact
  push Not at inexact
  -- The zero byte of the last name is one of the last four bytes of the directory. If the name were
  -- read four bytes further on, its zero byte would be in what follows.
  have beyond := sum_occupied_add_four_le inexact
  have lengths : (entries ++ [last]).length =
      (entries.map DirectoryEntry.header ++ [last.header]).length := by simp
  rw [List.map_append, List.map_singleton, lengths] at read
  obtain ⟨other, stored, same⟩ :=
    DirectoryEntry.readAt_eq_ok_iff.mp (readAt_of_readDirectory read)
  have zero := stored.getElem?
  rw [DirectoryEntry.length_name_of_header same, whole, List.flatMap_append, List.flatMap_singleton,
    ← List.append_assoc, List.getElem?_append_right] at zero
  · exact filled (List.mem_of_getElem? zero)
  · rw [List.length_append, List.length_append, last.length_bytes, DirectoryEntry.occupied, alignUp]
    omega

end

/-- The fields of a root in front of its directory. The version text is whatever bytes have its
length. -/
structure Preamble where
  majorVersion : UInt16
  minorVersion : UInt16
  reserved : UInt32
  version : List UInt8
  flags : UInt16
  short : version.length < UInt32.size

namespace Preamble

def bytes (start : Preamble) (count : Nat) : List UInt8 :=
  littleEndian 4 signatureValue.toNat ++ (littleEndian 2 start.majorVersion.toNat ++
    (littleEndian 2 start.minorVersion.toNat ++ (littleEndian 4 start.reserved.toNat ++
      (littleEndian 4 start.version.length ++ (start.version ++
        (littleEndian 2 start.flags.toNat ++ littleEndian 2 count))))))

def root (start : Preamble) (streams : List StreamHeader) : Root where
  signature := signatureValue
  majorVersion := start.majorVersion
  minorVersion := start.minorVersion
  version := StreamHeader.latinText (start.version.takeWhile (· ≠ 0))
  flags := start.flags
  streams := streams

/-- The reader takes every preamble, whatever the directory is. -/
theorem read {image : Bytes} {start : Preamble} {count : Nat} {rest : List UInt8}
    (some : count ≠ 0) (few : count ≤ maxStreams)
    (whole : image.toList = start.bytes count ++ rest) :
    Root.read image =
      (readDirectory image count (start.bytes count).length).map start.root := by
  have countFits : count < 256 ^ 2 := Nat.lt_of_le_of_lt few (by decide)
  have length : (start.bytes count).length = 16 + start.version.length + 4 := by
    simp only [bytes, List.length_append, littleEndian_length]
    omega
  have size : image.size = 16 + start.version.length + 4 + rest.length := by
    rw [← Array.length_toList, whole, List.length_append, length]
  rw [bytes] at whole
  simp only [List.append_assoc] at whole
  -- Each field is read with those before it taken over into the front part.
  have signature := word32At?_middle signatureValue.toNat_lt (whole.trans (List.nil_append _).symm)
  have major := word16At?_middle start.majorVersion.toNat_lt whole
  rw [← List.append_assoc] at whole
  have minor := word16At?_middle start.minorVersion.toNat_lt whole
  rw [← List.append_assoc, ← List.append_assoc] at whole
  have versionLength := numberAt?_middle start.short whole
  rw [← List.append_assoc] at whole
  have text := extract_middle whole
  rw [← List.append_assoc] at whole
  have flags := word16At?_middle start.flags.toNat_lt whole
  rw [← List.append_assoc] at whole
  have counted := numberAt?_middle countFits whole
  simp only [List.length_append, littleEndian_length, List.length_nil, Nat.reduceAdd] at *
  have enough : ¬ image.size < 20 := by omega
  have room : ¬ image.size < 16 + start.version.length + 4 := by omega
  have same : ¬ signatureValue ≠ signatureValue := not_not_intro rfl
  have counts : ¬ (count = 0 ∨ maxStreams < count) := by omega
  rw [Root.read, length]
  simp only [if_neg enough, signature, UInt32.ofNat_toNat, orOutOfBounds, bind, Except.bind,
    if_neg same, versionLength, if_neg room, text, flags, counted, if_neg counts, major, minor,
    UInt16.ofNat_toNat]
  cases readDirectory image count (16 + start.version.length + 4) <;> rfl

end Preamble

/-- A directory is read back if the predicted sizes of all entries but the last one are right, and
only then where no zero byte follows it. The predicted size of a header that was read is right
exactly if the padding of its name has room for the second bytes of its characters. -/
theorem read_eq_entries {image : Bytes} {start : Preamble} {entries : List DirectoryEntry}
    {tail : List UInt8} (nonempty : entries ≠ []) (few : entries.length ≤ 16)
    (inside : ∀ entry ∈ entries, entry.IsInside image)
    (whole : image.toList =
      start.bytes entries.length ++ (entries.flatMap DirectoryEntry.bytes ++ tail)) :
    ((∀ entry ∈ entries.dropLast, entry.IsExact) →
      read image = .ok (start.root (entries.map DirectoryEntry.header))) ∧
    (0 ∉ tail → read image = .ok (start.root (entries.map DirectoryEntry.header)) →
      ∀ entry ∈ entries.dropLast, entry.IsExact) ∧
    ∀ data position header, StreamHeader.readAt data position = .ok header →
      ∃ entry : DirectoryEntry, entry.StoredAt data position ∧ entry.header = header ∧
        header.encodedSize = 8 + alignUp 4 (entry.name.length + entry.wide + 1) ∧
        (header.encodedSize = entry.occupied ↔ entry.IsExact) := by
  have some : entries.length ≠ 0 := mt List.length_eq_zero_iff.mp nonempty
  rw [start.read some few whole]
  obtain ⟨earlier, last, rfl⟩ := (List.eq_nil_or_concat' entries).resolve_left nonempty
  rw [List.dropLast_concat]
  refine ⟨?_, ?_, ?_⟩
  · intro exact
    rw [readDirectory_entries exact inside whole]
    rfl
  · intro filled found
    apply exact_of_readDirectory filled whole
    cases walked : readDirectory image (earlier ++ [last]).length
        (start.bytes (earlier ++ [last]).length).length with
    | error fault =>
      rw [walked] at found
      cases found
    | ok headers =>
      rw [walked] at found
      exact congrArg Except.ok (congrArg Root.streams (Except.ok.inj found))
  · intro data position header found
    obtain ⟨entry, stored, rfl⟩ := DirectoryEntry.readAt_eq_ok_iff.mp found
    exact ⟨entry, stored, rfl, entry.encodedSize_header, entry.encodedSize_eq_occupied_iff⟩

def samplePreamble : Preamble :=
  ⟨1, 1, 0, [0x76, 0x31, 0, 0], 0, by decide⟩

/-- The name of the tables. -/
def tablesEntry : DirectoryEntry :=
  ⟨0, 0, [0x23, 0x7E], by decide, by decide +kernel⟩

/-- A name of three bytes, of which the last one is above the ASCII range. -/
def latinEntry : DirectoryEntry :=
  ⟨0, 4, [0x61, 0x62, 0xE9], by decide, by decide +kernel⟩

def sampleImage (entries : List DirectoryEntry) (tail : List UInt8) : Bytes :=
  (samplePreamble.bytes entries.length ++
    (entries.flatMap DirectoryEntry.bytes ++ tail)).toArray

/-- An entry with an ordinary name and one with a byte above 0x7F. -/
theorem read_eq_entries_sample :
    read (sampleImage [tablesEntry, latinEntry] [7]) =
        .ok (samplePreamble.root [tablesEntry.header, latinEntry.header]) ∧
      (∀ entry ∈ [tablesEntry], entry.IsExact) ∧
      ∃ entry : DirectoryEntry, entry.StoredAt #[0, 0, 0, 0, 4, 0, 0, 0, 0x61, 0x62, 0xE9, 0] 0 ∧
        entry.header = latinEntry.header ∧ latinEntry.header.encodedSize =
          8 + alignUp 4 (entry.name.length + entry.wide + 1) ∧
        (latinEntry.header.encodedSize = entry.occupied ↔ entry.IsExact) := by
  have all := read_eq_entries (by simp) (by decide) (by decide +kernel)
    (show (sampleImage [tablesEntry, latinEntry] [7]).toList =
      samplePreamble.bytes [tablesEntry, latinEntry].length ++
        ([tablesEntry, latinEntry].flatMap DirectoryEntry.bytes ++ [7]) by decide +kernel)
  have found := all.1 (by decide +kernel)
  exact ⟨found, all.2.1 (by decide) found, all.2.2 _ 0 _ (by decide +kernel)⟩

/-- The predicted size of a name with a byte above the ASCII range leads over the next entry. -/
theorem read_latin_refused :
    StreamHeader.readAt #[0, 0, 0, 0, 4, 0, 0, 0, 0x61, 0x62, 0xE9, 0] 0 = .ok latinEntry.header ∧
      latinEntry.header.encodedSize = 16 ∧ latinEntry.occupied = 12 ∧
      (∀ entry ∈ [latinEntry, tablesEntry],
        entry.IsInside (sampleImage [latinEntry, tablesEntry] [])) ∧
      read (sampleImage [latinEntry, tablesEntry] []) = .error .outOfBounds := by
  decide +kernel

end Root

end ClrDecompiler.Metadata
