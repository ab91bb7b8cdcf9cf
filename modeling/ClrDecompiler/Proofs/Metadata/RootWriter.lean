/-
This file computes the bytes of a metadata root: the version text, the directory of the streams
and the streams, each padded to a multiple of four bytes.
-/

import ClrDecompiler.Metadata.RootBuilder
import ClrDecompiler.Proofs.Bytes.LittleEndian
import ClrDecompiler.Proofs.Outcome
import ClrDecompiler.Proofs.Text.Utf8

namespace ClrDecompiler.Metadata.Root

open Bytes

/-- A text with the zero byte that ends it. -/
def textField (text : String) : List UInt8 :=
  padded ((Utf8.encode text).toList ++ [0])

/-- The directory entries of streams that lie one after the other from an offset on. -/
def directory : Nat → List (String × Bytes) → List UInt8
  | _, [] => []
  | offset, (name, stream) :: rest =>
    littleEndian 4 offset ++ (littleEndian 4 (alignUp 4 stream.size) ++
      (textField name ++ directory (offset + alignUp 4 stream.size) rest))

def contents (streams : List (String × Bytes)) : List UInt8 :=
  streams.flatMap fun stream => padded stream.2.toList

def directorySize (streams : List (String × Bytes)) : Nat :=
  streams.foldr (fun stream size => entrySize stream.1 + size) 0

/-- Where the streams start. -/
def headerSize (version : String) (streams : List (String × Bytes)) : Nat :=
  16 + (textField version).length + 4 + directorySize streams

/-- What stands in front of the directory: the signature, the format version, the length of the
version text and the text, flags and the number of streams. -/
def preamble (version : String) (count : Nat) : List UInt8 :=
  littleEndian 4 signatureValue.toNat ++ (littleEndian 2 1 ++ (littleEndian 2 1 ++
    (littleEndian 4 0 ++ (littleEndian 4 (textField version).length ++
      (textField version ++ (littleEndian 2 0 ++ littleEndian 2 count))))))

/-- All bytes of a root. -/
def encoding (version : String) (streams : List (String × Bytes)) : List UInt8 :=
  preamble version streams.length ++
    (directory (headerSize version streams) streams ++ contents streams)

/-- A text with its zero byte is filled up to a multiple of four bytes. -/
theorem textField_length (text : String) :
    (textField text).length = alignUp 4 (text.utf8ByteSize + 1) := by
  rw [textField, padded_length, List.length_append]
  rfl

/-- An entry of the directory holds two numbers and a name. -/
theorem entrySize_eq (name : String) : entrySize name = 8 + (textField name).length := by
  rw [textField_length, entrySize, alignUp]

/-- The entries take the room that is set aside for them. -/
theorem directory_length (offset : Nat) (streams : List (String × Bytes)) :
    (directory offset streams).length = directorySize streams := by
  induction streams generalizing offset with
  | nil => rfl
  | cons stream rest ih =>
    have size : directorySize (stream :: rest) = entrySize stream.1 + directorySize rest := rfl
    rw [size, entrySize_eq, directory]
    simp only [List.length_append, littleEndian_length, ih]
    omega

/-- What stands before the directory, by the length of the version. -/
theorem preamble_length (version : String) (count : Nat) :
    (preamble version count).length = 16 + (textField version).length + 4 := by
  simp only [preamble, List.length_append, littleEndian_length]
  omega

/-- A text is written behind the data and ended by a zero byte. -/
theorem toList_append_encode_push (data : Bytes) (text : String) :
    ((data ++ Utf8.encode text).push 0).toList =
      data.toList ++ ((Utf8.encode text).toList ++ [0]) := by
  simp

/-- Entries that fit are written as the directory. -/
theorem appendEntries_eq_ok {data after : Bytes} {offset : Nat} {streams : List (String × Bytes)}
    (aligned : data.size % 4 = 0) (written : appendEntries data offset streams = .ok after) :
    after.toList = data.toList ++ directory offset streams := by
  induction streams generalizing data offset with
  | nil =>
    cases written
    exact (List.append_nil _).symm
  | cons stream rest ih =>
    obtain ⟨name, stream⟩ := stream
    rw [appendEntries] at written
    by_cases large : UInt32.size ≤ offset
    · rw [if_pos large] at written
      cases written
    · rw [if_neg large] at written
      have entry : (padTo (((((data.appendNumber 4 offset).appendNumber 4
          (alignUp 4 stream.size)) ++ Utf8.encode name).push 0)) 4).toList =
            data.toList ++ (littleEndian 4 offset ++ (littleEndian 4 (alignUp 4 stream.size) ++
              textField name)) := by
        have start : (data.toList ++ (littleEndian 4 offset ++
            littleEndian 4 (alignUp 4 stream.size))).length % 4 = 0 := by
          simp only [List.length_append, littleEndian_length, Array.length_toList]
          omega
        rw [toList_padTo_four _ ((Utf8.encode name).toList ++ [0]) start]
        · simp only [List.append_assoc, textField]
        · rw [toList_append_encode_push]
          simp only [toList_appendNumber, List.append_assoc]
      have next : (padTo (((((data.appendNumber 4 offset).appendNumber 4
          (alignUp 4 stream.size)) ++ Utf8.encode name).push 0)) 4).size % 4 = 0 := by
        have field := alignUp_four_mod (name.utf8ByteSize + 1)
        rw [← Array.length_toList, entry]
        simp only [List.length_append, littleEndian_length, Array.length_toList, textField_length]
        omega
      rw [ih next written, entry, directory]
      simp only [List.append_assoc]

/-- Streams follow one another, each filled up to a multiple of four bytes. -/
theorem toList_foldl_padTo (streams : List (String × Bytes)) {data : Bytes}
    (aligned : data.size % 4 = 0) :
    (streams.foldl (fun data (_, stream) => padTo (data ++ stream) 4) data).toList =
      data.toList ++ contents streams := by
  induction streams generalizing data with
  | nil => exact (List.append_nil _).symm
  | cons stream rest ih =>
    have first : (padTo (data ++ stream.2) 4).toList = data.toList ++ padded stream.2.toList :=
      toList_padTo_four _ _ (by rw [Array.length_toList]; exact aligned) Array.toList_append
    have next : (padTo (data ++ stream.2) 4).size % 4 = 0 := by
      have field := alignUp_four_mod stream.2.toList.length
      rw [← Array.length_toList, first, List.length_append, padded_length, Array.length_toList]
      omega
    rw [List.foldl_cons, ih next, first, contents, contents, List.flatMap_cons, List.append_assoc]

/-- The fields in front of the directory. -/
theorem toList_fixed (version : Bytes) (count : Nat) :
    (appendNumber (appendNumber (([(4, signatureValue.toNat), (2, 1), (2, 1), (4, 0),
      (4, version.size)].foldl (fun data (width, value) => appendNumber data width value) #[]) ++
        version) 2 0) 2 count).toList =
      littleEndian 4 signatureValue.toNat ++ (littleEndian 2 1 ++ (littleEndian 2 1 ++
        (littleEndian 4 0 ++ (littleEndian 4 version.size ++
          (version.toList ++ (littleEndian 2 0 ++ littleEndian 2 count)))))) := by
  simp only [List.foldl_cons, List.foldl_nil, toList_appendNumber, Array.toList_append,
    List.append_assoc, List.nil_append]

/-- Behind the preamble stand the directory and the streams. -/
theorem toList_root {version : String} {streams : List (String × Bytes)} {front data : Bytes}
    (start : front.toList = preamble version streams.length)
    (written : appendEntries front (headerSize version streams) streams = .ok data) :
    (streams.foldl (fun data (_, stream) => padTo (data ++ stream) 4) data).toList =
      encoding version streams := by
  have versionField := alignUp_four_mod (version.utf8ByteSize + 1)
  have frontSize := congrArg List.length start
  rw [preamble_length, textField_length, Array.length_toList] at frontSize
  have entries := appendEntries_eq_ok (by rw [frontSize]; omega) written
  have sizes (streams : List (String × Bytes)) : directorySize streams % 4 = 0 := by
    induction streams with
    | nil => rfl
    | cons stream rest ih =>
      have nameField := alignUp_four_mod (stream.1.utf8ByteSize + 1)
      have size : directorySize (stream :: rest) = entrySize stream.1 + directorySize rest := rfl
      rw [size, entrySize_eq, textField_length]
      omega
  have dataSize := congrArg List.length entries
  rw [List.length_append, directory_length, Array.length_toList, Array.length_toList] at dataSize
  have streamsSize := sizes streams
  rw [toList_foldl_padTo streams (by rw [dataSize, frontSize]; omega), entries, start, encoding,
    List.append_assoc]

/-- A root that is built is the encoding of its version and its streams. -/
theorem build_eq_ok {version : String} {streams : List (String × Bytes)} {image : Bytes}
    (built : build version streams = .ok image) : image.toList = encoding version streams := by
  have text : (padTo ((Utf8.encode version).push 0) 4).toList = textField version :=
    toList_padTo_four [] _ rfl (by simp)
  have textSize := congrArg List.length text
  rw [Array.length_toList] at textSize
  have start := (toList_fixed (padTo ((Utf8.encode version).push 0) 4) streams.length).trans
    (show _ = preamble version streams.length by rw [text, textSize, preamble])
  obtain ⟨data, written, finished⟩ := Outcome.of_bind_eq_ok built
  cases finished
  apply toList_root start
  rw [headerSize, ← textSize]
  exact written

end ClrDecompiler.Metadata.Root
