/-
This file shows that every root whose image is small enough is built and read back, and that its
streams lie one behind the other between the directory and the end of the image.
-/

import ClrDecompiler.Proofs.Metadata.RootRoundTrip
import Mathlib.Algebra.GroupWithZero.Nat

namespace ClrDecompiler.Metadata.Root

open Bytes

/-- The size of a root: its header and the streams, each rounded up to a multiple of four. -/
def imageSize (version : String) (streams : List (String × Bytes)) : Nat :=
  headerSize version streams + (streams.map fun stream => alignUp 4 stream.2.size).sum

/-- The streams take the sum of their sizes, each filled up. -/
theorem length_contents (streams : List (String × Bytes)) :
    (contents streams).length = (streams.map fun stream => alignUp 4 stream.2.size).sum := by
  induction streams with
  | nil => rfl
  | cons stream rest ih => simp [contents_cons, ih]

/-- The image has the size that is announced for it. -/
theorem length_encoding (version : String) (streams : List (String × Bytes)) :
    (encoding version streams).length = imageSize version streams := by
  simp only [encoding, List.length_append, preamble_length, directory_length, length_contents,
    imageSize, headerSize]
  omega

/-- The entries are written while the offsets fit them. -/
theorem appendEntries_ok {data : Bytes} {offset : Nat} {streams : List (String × Bytes)}
    (small : offset + (streams.map fun stream => alignUp 4 stream.2.size).sum < UInt32.size) :
    ∃ after, appendEntries data offset streams = .ok after := by
  induction streams generalizing data offset with
  | nil => exact ⟨data, rfl⟩
  | cons stream rest ih =>
    obtain ⟨name, stream⟩ := stream
    simp only [List.map_cons, List.sum_cons] at small
    have fits : ¬ UInt32.size ≤ offset := by omega
    rw [appendEntries, if_neg fits]
    exact ih (by omega)

/-- A root is built where its image is small enough, and has the bytes of `encoding`. -/
theorem build_ok {version : String} {streams : List (String × Bytes)}
    (small : imageSize version streams < UInt32.size) :
    ∃ image, build version streams = .ok image ∧ image.toList = encoding version streams := by
  have text : (padTo ((Utf8.encode version).push 0) 4).toList = textField version :=
    toList_padTo_four [] _ rfl (by simp)
  have textSize := congrArg List.length text
  rw [Array.length_toList] at textSize
  have built : ∃ image, build version streams = .ok image := by
    have fits : 16 + (padTo ((Utf8.encode version).push 0) 4).size + 4 + directorySize streams +
        (streams.map fun stream => alignUp 4 stream.2.size).sum < UInt32.size := by
      rw [textSize]
      exact small
    obtain ⟨after, written⟩ := appendEntries_ok fits
    exact ⟨_, by rw [build]; exact congrArg (· >>= _) written⟩
  obtain ⟨image, built⟩ := built
  exact ⟨image, built, build_eq_ok built⟩

/-! The directory of streams that lie one behind the other. -/

section

variable {offset : Nat} {streams : List (String × Bytes)}

/-- The headers bear the names of the streams in order. -/
theorem names_headers (offset : Nat) (streams : List (String × Bytes)) :
    (headers offset streams).map (·.name) = streams.map (·.1) := by
  induction streams generalizing offset with
  | nil => rfl
  | cons stream rest ih => simp [headers, ih]

variable (small : offset + (streams.map fun stream => alignUp 4 stream.2.size).sum < UInt32.size)

include small

/-- The headers announce the padded sizes of the streams. -/
theorem sizes_headers :
    (headers offset streams).map (·.size.toNat) = streams.map (alignUp 4 ·.2.size) := by
  induction streams generalizing offset with
  | nil => rfl
  | cons stream rest ih =>
    simp only [List.map_cons, List.sum_cons] at small
    have fits : alignUp 4 stream.2.size < UInt32.size := by omega
    simp only [headers, List.map_cons, UInt32.toNat_ofNat_of_lt' fits]
    rw [ih (by omega)]

/-- No stream starts before the first offset or ends behind the last one. -/
theorem bounds_headers : ∀ header ∈ headers offset streams, offset ≤ header.offset.toNat ∧
    header.offset.toNat + header.size.toNat ≤
      offset + (streams.map fun stream => alignUp 4 stream.2.size).sum := by
  induction streams generalizing offset with
  | nil =>
    intro header member
    cases member
  | cons stream rest ih =>
    simp only [List.map_cons, List.sum_cons] at small ⊢
    have offsetFits : offset < UInt32.size := by omega
    have sizeFits : alignUp 4 stream.2.size < UInt32.size := by omega
    intro header member
    cases member with
    | head =>
      simp only [UInt32.toNat_ofNat_of_lt' offsetFits, UInt32.toNat_ofNat_of_lt' sizeFits]
      omega
    | tail _ member =>
      have bounds := ih (by omega) header member
      omega

/-- Each stream ends before the next one starts. -/
theorem disjoint_headers : (headers offset streams).Pairwise fun first second =>
    first.offset.toNat + first.size.toNat ≤ second.offset.toNat := by
  induction streams generalizing offset with
  | nil => exact .nil
  | cons stream rest ih =>
    simp only [List.map_cons, List.sum_cons] at small
    have offsetFits : offset < UInt32.size := by omega
    have sizeFits : alignUp 4 stream.2.size < UInt32.size := by omega
    rw [headers, List.pairwise_cons]
    simp only [UInt32.toNat_ofNat_of_lt' offsetFits, UInt32.toNat_ofNat_of_lt' sizeFits]
    exact ⟨fun header member => (bounds_headers (by omega) header member).1, ih (by omega)⟩

end

/-- A stream whose name is not repeated is the first one of its name. -/
theorem split_of_count_eq_one {streams : List (String × Bytes)} {name : String} {stream : Bytes}
    (listed : (name, stream) ∈ streams) (once : (streams.map (·.1)).count name = 1) :
    ∃ earlier later, streams = earlier ++ (name, stream) :: later ∧
      name ∉ earlier.map (·.1) := by
  obtain ⟨earlier, later, rfl⟩ := List.append_of_mem listed
  refine ⟨earlier, later, rfl, ?_⟩
  simp only [List.map_append, List.map_cons, List.count_append, List.count_cons_self] at once
  exact List.count_eq_zero.mp (by omega)

/-- What a root and its image have of a version text and a list of streams. -/
structure Lays (version : String) (streams : List (String × Bytes)) (image : Bytes)
    (root : Root) : Prop where
  size : image.size = imageSize version streams
  text : root.version = version
  names : root.streams.map (·.name) = streams.map (·.1)
  sizes : root.streams.map (·.size.toNat) = streams.map (alignUp 4 ·.2.size)
  disjoint : root.streams.Pairwise fun first second =>
    first.offset.toNat + first.size.toNat ≤ second.offset.toNat
  behind : ∀ header ∈ root.streams, headerSize version streams ≤ header.offset.toNat
  inside : ∀ header ∈ root.streams, header.offset.toNat + header.size.toNat ≤ image.size
  data : ∀ name stream, (name, stream) ∈ streams → (streams.map (·.1)).count name = 1 →
    ∃ zeros < 4, root.streamData? image name = some (stream ++ Array.replicate zeros 0)

/-- Every root with a plain version text and up to sixteen streams with plain names is built and
read back, unless its image is too large. -/
theorem build_then_read {version : String} {streams : List (String × Bytes)}
    (plain : IsPlain version) (nonempty : streams ≠ []) (few : streams.length ≤ 16)
    (named : ∀ stream ∈ streams, IsPlain stream.1 ∧ stream.1.utf8ByteSize ≤ 32)
    (small : imageSize version streams < UInt32.size) :
    ∃ image root, build version streams = .ok image ∧ read image = .ok root ∧
      Lays version streams image root := by
  obtain ⟨image, built, whole⟩ := build_ok small
  have size : image.size = imageSize version streams := by
    rw [← Array.length_toList, whole, length_encoding]
  have imageSmall : image.size < UInt32.size := size ▸ small
  -- The headers that are read are those of streams that lie one behind the other.
  obtain ⟨root, found, text, entries⟩ : ∃ root, read image = .ok root ∧ root.version = version ∧
      root.streams = headers (headerSize version streams) streams :=
    ⟨_, read_encoding imageSmall plain nonempty few named whole, rfl, rfl⟩
  refine ⟨image, root, built, found, ?_⟩
  have bounds := bounds_headers small
  rw [← entries] at bounds
  exact {
    size := size
    text := text
    names := by rw [entries, names_headers]
    sizes := by rw [entries, sizes_headers small]
    disjoint := by
      rw [entries]
      exact disjoint_headers small
    behind := fun header member => (bounds header member).1
    inside := fun header member => size ▸ (bounds header member).2
    data := by
      intro name stream listed once
      obtain ⟨earlier, later, rfl, first⟩ := split_of_count_eq_one listed once
      refine ⟨alignUp 4 stream.size - stream.size, by rw [alignUp]; omega, ?_⟩
      rw [streamData?_encoding earlier imageSmall first entries whole]
      congr 1
      apply Array.toList_inj.mp
      simp [padded] }

/-- A stream of three bytes, an empty one and one of a single byte. -/
theorem build_then_read_sample :
    ∃ image root, build "v4.0.30319" [("#~", #[1, 2, 3]), ("#Strings", #[]), ("#~", #[4])] =
        .ok image ∧ read image = .ok root ∧
      Lays "v4.0.30319" [("#~", #[1, 2, 3]), ("#Strings", #[]), ("#~", #[4])] image root :=
  build_then_read (by decide +kernel) (by decide) (by decide) (by decide +kernel)
    (by decide +kernel)

end ClrDecompiler.Metadata.Root
