/-
This file shows that the reader of metadata roots finds the streams that the builder wrote.
-/

import ClrDecompiler.Proofs.Metadata.RootWriter

namespace ClrDecompiler.Metadata

open Bytes

/-- A text of ASCII characters other than the zero character. -/
def IsPlain (text : String) : Prop :=
  ∀ c ∈ text.toList, c.toNat ≠ 0 ∧ c.toNat < 128

instance (text : String) : Decidable (IsPlain text) :=
  List.decidableBAll (fun c : Char => c.toNat ≠ 0 ∧ c.toNat < 128) text.toList

section Plain

variable {text : String} (plain : IsPlain text)

include plain

/-- Every character of a plain text is one byte. -/
theorem toList_encode_of_plain :
    (Utf8.encode text).toList = text.toList.map fun c => UInt8.ofNat c.toNat := by
  rw [Utf8.toList_encode, List.map_eq_flatMap]
  apply List.flatMap_congr
  intro c member
  have small : c.val.toNat ≤ 0x7F := Nat.le_of_lt_succ (plain c member).2
  rw [String.utf8EncodeChar, if_pos small]
  rfl

/-- A plain name is read back character by character. -/
theorem latinText_encode : StreamHeader.latinText (Utf8.encode text).toList = text := by
  rw [toList_encode_of_plain plain, StreamHeader.latinText, List.map_map]
  have same : text.toList.map ((fun byte => Char.ofNat byte.toNat) ∘
      fun c => UInt8.ofNat c.toNat) = text.toList := by
    conv => rhs; rw [← List.map_id text.toList]
    apply List.map_congr_left
    intro c member
    have small : c.toNat < 256 := Nat.lt_trans (plain c member).2 (by decide)
    change Char.ofNat (UInt8.ofNat c.toNat).toNat = c
    rw [UInt8.toNat_ofNat_of_lt' small, Char.ofNat_toNat]
  rw [same, String.ofList_toList]

/-- A plain name has no byte that would end it early. -/
theorem encode_ne_zero : ∀ byte ∈ (Utf8.encode text).toList, byte ≠ 0 := by
  intro byte member
  rw [toList_encode_of_plain plain] at member
  obtain ⟨c, inside, rfl⟩ := List.mem_map.mp member
  have small : c.toNat < 256 := Nat.lt_trans (plain c inside).2 (by decide)
  intro zero
  have value := congrArg UInt8.toNat zero
  rw [UInt8.toNat_ofNat_of_lt' small] at value
  exact (plain c inside).1 value

/-- The text ends at the zero byte after it. -/
theorem takeWhile_encode (rest : List UInt8) :
    ((Utf8.encode text).toList ++ 0 :: rest).takeWhile (· ≠ 0) = (Utf8.encode text).toList := by
  rw [List.takeWhile_append_of_pos]
  · simp
  · exact fun byte member => decide_eq_true (encode_ne_zero plain byte member)

end Plain

/-- A text is followed by a zero byte and more zeros up to its field. -/
theorem textField_eq (text : String) : ∃ zeros, Root.textField text =
    (Utf8.encode text).toList ++ 0 :: zeros := by
  rw [Root.textField, padded]
  exact ⟨_, by rw [List.append_assoc]; rfl⟩

theorem length_encode (text : String) : (Utf8.encode text).toList.length = text.utf8ByteSize :=
  rfl

/-- The reader looks for a name in a window that ends behind the longest name. -/
theorem StreamHeader.toList_window {data : Bytes} {before zeros after : List UInt8} {name : String}
    (short : name.utf8ByteSize ≤ maxNameLength)
    (whole : data.toList = before ++ ((Utf8.encode name).toList ++ 0 :: (zeros ++ after))) :
    (data.extract before.length (before.length + maxNameLength + 1)).toList =
      (Utf8.encode name).toList ++ 0 ::
        (zeros ++ after).take (maxNameLength - name.utf8ByteSize) := by
  have count : before.length + maxNameLength + 1 - before.length =
      name.utf8ByteSize + (maxNameLength - name.utf8ByteSize + 1) := by omega
  rw [Array.toList_extract, List.extract_eq_take_drop, whole, List.drop_left, count,
    ← length_encode, List.take_length_add_append, List.take_succ_cons]

/-- An entry of the directory is read whatever follows it. -/
theorem StreamHeader.readAt_entry {data : Bytes} {before after : List UInt8} {offset size : Nat}
    {name : String} (plain : IsPlain name) (short : name.utf8ByteSize ≤ maxNameLength)
    (offsetFits : offset < 256 ^ 4) (sizeFits : size < 256 ^ 4)
    (whole : data.toList = before ++ (littleEndian 4 offset ++ (littleEndian 4 size ++
      (Root.textField name ++ after)))) :
    readAt data before.length = .ok ⟨UInt32.ofNat offset, UInt32.ofNat size, name⟩ := by
  obtain ⟨zeros, field⟩ := textField_eq name
  have offsetRead := word32At?_middle offsetFits whole
  have split : data.toList = (before ++ littleEndian 4 offset) ++ (littleEndian 4 size ++
      (Root.textField name ++ after)) := by
    rw [whole, List.append_assoc]
  have sizeRead := word32At?_middle sizeFits split
  rw [List.length_append, littleEndian_length] at sizeRead
  have back : data.toList = (before ++ (littleEndian 4 offset ++ littleEndian 4 size)) ++
      ((Utf8.encode name).toList ++ 0 :: (zeros ++ after)) := by
    rw [whole, field]
    simp only [List.append_assoc, List.cons_append]
  have window := toList_window short back
  simp only [List.length_append, littleEndian_length, Nat.reduceAdd] at window
  have ended : ((Utf8.encode name).toList ++ 0 ::
      (zeros ++ after).take (maxNameLength - name.utf8ByteSize)).all (· ≠ 0) = false := by
    rw [List.all_append, List.all_cons]
    simp
  have enough : ¬ data.size < before.length + 9 := by
    have nonempty : 0 < (Root.textField name).length := by
      rw [field, List.length_append, List.length_cons]
      omega
    rw [← Array.length_toList, whole]
    simp only [List.length_append, littleEndian_length]
    omega
  rw [readAt]
  simp only [if_neg enough, offsetRead, sizeRead, orOutOfBounds, window, ended,
    takeWhile_encode plain, latinText_encode plain]
  rfl

namespace Root

/-- The directory as it is read back. -/
def headers : Nat → List (String × Bytes) → List StreamHeader
  | _, [] => []
  | offset, (name, stream) :: rest =>
    ⟨UInt32.ofNat offset, UInt32.ofNat (alignUp 4 stream.size), name⟩ ::
      headers (offset + alignUp 4 stream.size) rest

/-- A name of a stream that the reader takes. -/
def IsStreamName (name : String) : Prop :=
  IsPlain name ∧ name.utf8ByteSize ≤ StreamHeader.maxNameLength

/-- The streams take the room of the first and of all others. -/
theorem contents_cons (stream : String × Bytes) (rest : List (String × Bytes)) :
    (contents (stream :: rest)).length = alignUp 4 stream.2.size + (contents rest).length := by
  rw [contents, List.flatMap_cons, List.length_append, padded_length]
  rfl

/-- The directory that is written is read back as the headers of the streams. -/
theorem readDirectory_directory {data : Bytes} {before after : List UInt8} {offset : Nat}
    {streams : List (String × Bytes)} (small : data.size < UInt32.size)
    (named : ∀ stream ∈ streams, IsStreamName stream.1)
    (inside : offset + (contents streams).length ≤ data.size)
    (whole : data.toList = before ++ (directory offset streams ++ after)) :
    readDirectory data streams.length before.length = .ok (headers offset streams) := by
  induction streams generalizing before offset with
  | nil => rfl
  | cons stream rest ih =>
    obtain ⟨name, stream⟩ := stream
    rw [List.forall_mem_cons] at named
    rw [contents_cons] at inside
    dsimp only at named inside
    change data.size < 4294967296 at small
    rw [directory] at whole
    simp only [List.append_assoc] at whole
    have offsetFits : offset < 4294967296 := by omega
    have sizeFits : alignUp 4 stream.size < 4294967296 := by omega
    have entry := StreamHeader.readAt_entry named.1.1 named.1.2 offsetFits sizeFits whole
    have entryLength : (before ++ (littleEndian 4 offset ++ (littleEndian 4 (alignUp 4 stream.size)
        ++ textField name))).length = before.length + (8 + (textField name).length) := by
      simp only [List.length_append, littleEndian_length]
      omega
    have split : data.toList = (before ++ (littleEndian 4 offset ++
        (littleEndian 4 (alignUp 4 stream.size) ++ textField name))) ++
          (directory (offset + alignUp 4 stream.size) rest ++ after) := by
      rw [whole]
      simp only [List.append_assoc]
    have later := ih named.2 (by omega) split
    have notEnded : ¬ data.size ≤ before.length := by
      rw [← Array.length_toList, whole, List.length_append, List.length_append,
        littleEndian_length]
      omega
    have extent : ¬ UInt32.size ≤ offset + alignUp 4 stream.size := by
      change ¬ 4294967296 ≤ _
      omega
    have within : ¬ data.size < offset + alignUp 4 stream.size := by omega
    rw [entryLength, textField_length] at later
    simp only [List.length_cons, readDirectory, if_neg notEnded, entry, bind, Except.bind,
      UInt32.toNat_ofNat_of_lt' offsetFits, UInt32.toNat_ofNat_of_lt' sizeFits, if_neg extent,
      if_neg within, StreamHeader.encodedSize, later]
    rfl

/-- The reader takes a root of up to sixteen streams with plain names. -/
theorem read_encoding {image : Bytes} {version : String} {streams : List (String × Bytes)}
    (small : image.size < UInt32.size) (plain : IsPlain version) (nonempty : streams ≠ [])
    (few : streams.length ≤ maxStreams) (named : ∀ stream ∈ streams, IsStreamName stream.1)
    (whole : image.toList = encoding version streams) :
    read image = .ok ⟨signatureValue, 1, 1, version, 0,
      headers (headerSize version streams) streams⟩ := by
  obtain ⟨zeros, field⟩ := textField_eq version
  change image.size < 4294967296 at small
  have size : image.size = headerSize version streams + (contents streams).length := by
    rw [← Array.length_toList, whole, encoding, List.length_append, List.length_append,
      preamble_length, directory_length, headerSize]
    omega
  have versionFits : (textField version).length < 4294967296 := by
    rw [size, headerSize] at small
    omega
  have countFits : streams.length < 256 ^ 2 := Nat.lt_of_le_of_lt few (by decide)
  have start : image.toList = littleEndian 4 signatureValue.toNat ++ (littleEndian 2 1 ++
      (littleEndian 2 1 ++ (littleEndian 4 0 ++ (littleEndian 4 (textField version).length ++
        (textField version ++ (littleEndian 2 0 ++ (littleEndian 2 streams.length ++
          (directory (headerSize version streams) streams ++ contents streams)))))))) := by
    rw [whole, encoding, preamble]
    simp only [List.append_assoc]
  have signature := word32At?_middle signatureValue.toNat_lt (start.trans (List.nil_append _).symm)
  have major := word16At?_middle (by decide) start
  rw [← List.append_assoc] at start
  have minor := word16At?_middle (by decide) start
  rw [← List.append_assoc, ← List.append_assoc] at start
  have versionLength := numberAt?_middle versionFits start
  rw [← List.append_assoc] at start
  have text := extract_middle start
  rw [← List.append_assoc] at start
  have flags := word16At?_middle (by decide) start
  rw [← List.append_assoc] at start
  have count := numberAt?_middle countFits start
  rw [← List.append_assoc] at start
  have directory := readDirectory_directory small named (by omega) start
  simp only [List.length_append, littleEndian_length, List.length_nil, Nat.reduceAdd] at *
  have enough : ¬ image.size < 20 := by rw [size, headerSize]; omega
  have room : ¬ image.size < 16 + (textField version).length + 4 := by
    rw [size, headerSize]
    omega
  have same : ¬ UInt32.ofNat signatureValue.toNat ≠ signatureValue := by
    rw [UInt32.ofNat_toNat]
    exact not_not_intro rfl
  have some : ¬ (streams.length = 0 ∨ maxStreams < streams.length) := by
    rw [List.length_eq_zero_iff]
    rintro (empty | many)
    · exact nonempty empty
    · exact Nat.not_lt_of_le few many
  rw [read]
  simp only [if_neg enough, signature, orOutOfBounds, bind, Except.bind, if_neg same,
    versionLength, if_neg room, text, flags, count, if_neg some, directory, major, minor]
  rw [field, takeWhile_encode plain, latinText_encode plain]
  rfl

/-- Every stream is a part of the image. -/
theorem padded_length_le {image : Bytes} {version : String} {streams : List (String × Bytes)}
    {stream : String × Bytes} (listed : stream ∈ streams)
    (whole : image.toList = encoding version streams) :
    (padded stream.2.toList).length ≤ image.size := by
  have inside : (padded stream.2.toList).Sublist (contents streams) :=
    List.sublist_flatten_of_mem (List.mem_map_of_mem listed)
  have size := inside.length_le
  rw [← Array.length_toList, whole, encoding, List.length_append, List.length_append]
  omega

/-- The header of a stream comes after those of the streams before it. -/
theorem find?_headers {name : String} {stream : Bytes} {earlier later : List (String × Bytes)}
    (first : name ∉ earlier.map Prod.fst) (offset : Nat) :
    (headers offset (earlier ++ (name, stream) :: later)).find?
        (fun header => header.name == name) =
      some ⟨UInt32.ofNat (offset + (contents earlier).length),
        UInt32.ofNat (alignUp 4 stream.size), name⟩ := by
  induction earlier generalizing offset with
  | nil => exact List.find?_cons_of_pos (beq_self_eq_true name)
  | cons other earlier ih =>
    rw [List.map_cons, List.mem_cons, not_or] at first
    have apart : (other.1 == name) = false := beq_false_of_ne (Ne.symm first.1)
    rw [contents_cons, ← Nat.add_assoc, ← ih first.2]
    exact List.find?_cons_of_neg (by rw [apart]; exact Bool.false_ne_true)

/-- The data of a stream is the first one of its name, with zeros behind it. -/
theorem streamData?_encoding {root : Root} {image : Bytes} {version name : String} {stream : Bytes}
    (earlier : List (String × Bytes)) {later : List (String × Bytes)}
    (small : image.size < UInt32.size) (first : name ∉ earlier.map Prod.fst)
    (listed : root.streams = headers (headerSize version (earlier ++ (name, stream) :: later))
      (earlier ++ (name, stream) :: later))
    (whole : image.toList = encoding version (earlier ++ (name, stream) :: later)) :
    root.streamData? image name = some (padded stream.toList).toArray := by
  have split : image.toList = (preamble version (earlier ++ (name, stream) :: later).length ++
      (directory (headerSize version (earlier ++ (name, stream) :: later))
        (earlier ++ (name, stream) :: later) ++ contents earlier)) ++
          (padded stream.toList ++ contents later) := by
    rw [whole, encoding]
    simp only [contents, List.flatMap_append, List.flatMap_cons, List.append_assoc]
  have place : (preamble version (earlier ++ (name, stream) :: later).length ++
      (directory (headerSize version (earlier ++ (name, stream) :: later))
        (earlier ++ (name, stream) :: later) ++ contents earlier)).length =
          headerSize version (earlier ++ (name, stream) :: later) + (contents earlier).length := by
    simp only [List.length_append, preamble_length, directory_length, headerSize]
    omega
  have cut := slice?_middle split
  have size := congrArg List.length split
  change image.size < 4294967296 at small
  rw [List.length_append, place, List.length_append, padded_length] at size
  change image.size = _ + (alignUp 4 stream.size + _) at size
  rw [place, padded_length] at cut
  change image.slice? _ (alignUp 4 stream.size) = _ at cut
  have offsetFits : headerSize version (earlier ++ (name, stream) :: later) +
      (contents earlier).length < 4294967296 := by omega
  have sizeFits : alignUp 4 stream.size < 4294967296 := by omega
  rw [streamData?, listed, find?_headers first]
  change image.slice? (UInt32.ofNat _).toNat (UInt32.ofNat _).toNat = _
  rw [UInt32.toNat_ofNat_of_lt' offsetFits, UInt32.toNat_ofNat_of_lt' sizeFits]
  exact cut

end Root

end ClrDecompiler.Metadata
