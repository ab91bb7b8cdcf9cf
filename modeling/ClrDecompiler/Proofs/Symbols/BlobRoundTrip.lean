/-
This file shows that what the writer of symbols stores in blobs is read back: the names of documents
from any later state of the heap, and the place of a declaration from its only point.
-/

import ClrDecompiler.Proofs.Metadata.HeapRoundTrip
import ClrDecompiler.Proofs.Symbols.DocumentName
import ClrDecompiler.Proofs.Symbols.SequencePoint

namespace ClrDecompiler.Compressed

/-- Numbers are appended if and only if each of them has a compressed form. -/
theorem foldlM_appendUnsigned_ok_iff {data : Bytes} {values : List Nat} :
    (∃ after, values.foldlM appendUnsigned data = .ok after) ↔
      ∀ value ∈ values, value < 0x20000000 := by
  constructor
  · rintro ⟨after, written⟩
    obtain ⟨encoding, forms, -⟩ := foldlM_appendUnsigned_eq_ok written
    clear written
    induction forms with
    | nil => exact fun _ member => absurd member List.not_mem_nil
    | cons head tail ih => exact List.forall_mem_cons.mpr ⟨head.lt, ih⟩
  · intro fits
    induction values generalizing data with
    | nil => exact ⟨data, rfl⟩
    | cons value rest ih =>
      obtain ⟨small, others⟩ := List.forall_mem_cons.mp fits
      obtain ⟨encoding, encoded, -⟩ := encodeUnsigned_form small
      obtain ⟨after, written⟩ := @ih (data.appendList encoding) others
      refine ⟨after, ?_⟩
      rw [List.foldlM_cons, appendUnsigned, encoded]
      exact written

theorem UnsignedForm.length_le {value : Nat} {encoding : List UInt8}
    (form : UnsignedForm value encoding) : encoding.length ≤ 4 := by
  cases form <;> simp [oneByte, twoBytes, fourBytes]

/-- A number of 29 bits is appended in four bytes at most. -/
theorem appendUnsigned_ok (data : Bytes) {value : Nat} (fits : value < 0x20000000) :
    ∃ after, appendUnsigned data value = .ok after ∧ after.size ≤ data.size + 4 := by
  obtain ⟨encoding, encoded, form⟩ := encodeUnsigned_form fits
  refine ⟨data.appendList encoding, by rw [appendUnsigned, encoded]; rfl, ?_⟩
  have whole : (data.appendList encoding).toList = data.toList ++ encoding :=
    Array.toList_appendList
  rw [← Array.length_toList, whole, List.length_append, Array.length_toList]
  exact Nat.add_le_add_left form.length_le _

end ClrDecompiler.Compressed

namespace ClrDecompiler.Metadata.BlobHeapBuilder

/-- Additions that follow leave the data in place, whether they succeed or not. -/
theorem extends_run {builder : BlobHeapBuilder} (sound : builder.Sound) (blobs : List Bytes) :
    builder.Extends (blobHeap.run builder blobs).2 := by
  induction blobs generalizing builder with
  | nil => exact extends_refl sound
  | cons blob rest ih =>
    cases step : (blobHeap.insert blob).runAt builder with
    | mk answer after =>
      have first : builder.Extends after := by
        cases answer with
        | error fault =>
          rw [(blobHeap.insert_performs blob).kept step]
          exact extends_refl sound
        | ok index => exact (add_stores sound ((blobHeap.insert_performs blob).eq_ok step)).1
      simp only [HeapKind.run, step]
      exact first.trans (ih first.sound)

/-- A blob below 2^29 bytes is added, and the heap grows by no more than it and its size. -/
theorem add_ok (builder : BlobHeapBuilder) {blob : Bytes} (small : blob.size < 0x20000000) :
    ∃ index after, builder.add blob = .ok (index, after) ∧
      after.data.size ≤ builder.data.size + (4 + blob.size) := by
  rw [add]
  split
  · exact ⟨0, builder, rfl, Nat.le_add_right _ _⟩
  · split
    · next index known => exact ⟨index, builder, rfl, Nat.le_add_right _ _⟩
    · obtain ⟨data, written, short⟩ := Compressed.appendUnsigned_ok builder.data small
      have word : ¬ UInt32.size ≤ blob.size :=
        Nat.not_le_of_lt (Nat.lt_trans small (by decide))
      dsimp only
      rw [if_neg word, written]
      refine ⟨_, _, rfl, ?_⟩
      rw [Array.size_append]
      omega

end ClrDecompiler.Metadata.BlobHeapBuilder

namespace ClrDecompiler.Symbols.DocumentName

open Metadata Compressed

/-- Bytes that are enough for the parts of a name in a heap. -/
def roomFor : List String → Nat
  | [] => 0
  | part :: rest => 4 + (Utf8.encode part).size + roomFor rest

theorem length_le_roomFor (parts : List String) : 4 * parts.length ≤ roomFor parts := by
  induction parts with
  | nil => exact Nat.le_refl 0
  | cons part rest ih =>
    rw [roomFor, List.length_cons]
    omega

/-- The parts of a name are added where there is room for them. -/
theorem appendParts_ok {blobs : BlobHeapBuilder} (sound : blobs.Sound) (text : Bytes)
    {parts : List String} (room : blobs.data.size + roomFor parts < 0x20000000) :
    ∃ result after, appendParts blobs text parts = .ok (result, after) ∧
      result.size ≤ text.size + 4 * parts.length := by
  induction parts generalizing blobs text with
  | nil => exact ⟨text, blobs, rfl, Nat.le_refl _⟩
  | cons part rest ih =>
    rw [roomFor] at room
    obtain ⟨index, middle, added, grown⟩ :=
      blobs.add_ok (show (Utf8.encode part).size < 0x20000000 by omega)
    obtain ⟨extension, stores, -⟩ := BlobHeapBuilder.add_stores sound added
    have inside := stores.index_lt
    rw [Array.length_toList] at inside
    obtain ⟨longer, numbered, short⟩ :=
      appendUnsigned_ok text (show index < 0x20000000 by omega)
    obtain ⟨result, after, appended, size⟩ := ih extension.sound longer (by omega)
    refine ⟨result, after, ?_, ?_⟩
    · rw [appendParts, added]
      show (appendUnsigned text index >>= fun text => appendParts middle text rest) = _
      rw [numbered]
      exact appended
    · rw [List.length_cons]
      omega

/-- A name is added wherever there is room for its parts. -/
theorem add_ok {blobs : BlobHeapBuilder} (sound : blobs.Sound) {name : String}
    (room : blobs.data.size + roomFor (Text.split separator name) < 0x20000000) :
    ∃ index named, add blobs name = .ok (index, named) := by
  obtain ⟨rest, start⟩ := sound.start
  have filled : 0 < blobs.data.size := by
    rw [← Array.length_toList, start]
    exact Nat.succ_pos _
  have counted := length_le_roomFor (Text.split separator name)
  obtain ⟨text, middle, appended, size⟩ :=
    appendParts_ok sound #[separator.toNat.toUInt8] room
  have one : (#[separator.toNat.toUInt8] : Bytes).size = 1 := rfl
  obtain ⟨index, named, added, -⟩ := middle.add_ok (show text.size < 0x20000000 by omega)
  refine ⟨index, named, ?_⟩
  rw [add, appended]
  exact added

end ClrDecompiler.Symbols.DocumentName

namespace ClrDecompiler.Symbols

open Metadata Compressed SequencePoint

/-- The points are written exactly if there is a width and all numbers have forms. -/
theorem declarationPoints_ok_iff {line startColumn endColumn : Nat} :
    (∃ points, declarationPoints line startColumn endColumn = .ok points) ↔
      startColumn < endColumn ∧ line ≤ 0x1FFFFFFF ∧ startColumn ≤ 0x1FFFFFFF ∧
        endColumn - startColumn ≤ 0x1FFFFFFF := by
  have numbers : (∃ points, [0, 0, 0, endColumn - startColumn, line, startColumn].foldlM
      appendUnsigned #[] = .ok points) ↔
        line ≤ 0x1FFFFFFF ∧ startColumn ≤ 0x1FFFFFFF ∧ endColumn - startColumn ≤ 0x1FFFFFFF := by
    rw [foldlM_appendUnsigned_ok_iff]
    simp only [List.mem_cons, List.not_mem_nil, or_false, forall_eq_or_imp, forall_eq]
    omega
  rw [declarationPoints]
  split
  case isTrue narrow =>
    constructor
    · rintro ⟨points, ⟨⟩⟩
    · rintro ⟨wide, -⟩
      exact absurd wide (Nat.not_lt_of_le narrow)
  case isFalse wide =>
    rw [numbers, and_iff_right (Nat.lt_of_not_le wide)]

/-- A document name is added wherever the heap has room for it below 2^29 bytes, and a name that
is added to a heap in any state is read back from the final data of the heap. Its index fits 32 bits
as long as these data have at most 2^32 bytes. The points of a declaration are written if and only
if it has a width and its numbers have compressed forms, and then they are read as the one point
that covers it. -/
theorem blobs_read_back :
    (∀ (earlier : List Bytes) (name : String), (blobHeap.image earlier).size +
        DocumentName.roomFor (Text.split DocumentName.separator name) < 0x20000000 →
      ∃ index named, DocumentName.add (blobHeap.run {} earlier).2 name = .ok (index, named)) ∧
    (∀ (earlier later : List Bytes) (name : String) (index : Nat) (named : BlobHeapBuilder),
      DocumentName.add (blobHeap.run {} earlier).2 name = .ok (index, named) →
        index < (blobHeap.run named later).2.data.size ∧
        ((blobHeap.run named later).2.data.size ≤ UInt32.size →
          (UInt32.ofNat index).toNat = index) ∧
        (do DocumentName.get (← BlobHeap.ofBytes (blobHeap.run named later).2.data) index) =
          .ok name) ∧
    ∀ line startColumn endColumn document : Nat, document ≠ 0 →
      ((∃ points, declarationPoints line startColumn endColumn = .ok points) ↔
        startColumn < endColumn ∧ line ≤ 0x1FFFFFFF ∧ startColumn ≤ 0x1FFFFFFF ∧
          endColumn - startColumn ≤ 0x1FFFFFFF) ∧
      ∀ points, declarationPoints line startColumn endColumn = .ok points →
        decode points document = .ok [⟨0, document, line, startColumn, line, endColumn⟩] := by
  have sound (earlier : List Bytes) : (blobHeap.run {} earlier).2.Sound :=
    (BlobHeapBuilder.extends_run BlobHeapBuilder.sound_start earlier).sound
  refine ⟨?_, ?_, ?_⟩
  · intro earlier name room
    exact DocumentName.add_ok (sound earlier) room
  · intro earlier later name index named added
    obtain ⟨first, stores⟩ := DocumentName.add_stores (sound earlier) added
    have last := BlobHeapBuilder.extends_run first.sound later
    obtain ⟨more, grown⟩ := last.grows
    have kept := stores.append more
    rw [← grown] at kept
    have inside := kept.index_lt
    refine ⟨inside, fun small => UInt32.toNat_ofNat_of_lt' (Nat.lt_of_lt_of_le inside small), ?_⟩
    rw [BlobHeap.ofBytes, if_pos (getElem?_zero last.sound.start)]
    exact DocumentName.StoresName.get kept
  · intro line startColumn endColumn document known
    exact ⟨declarationPoints_ok_iff, fun points written =>
      decode_declarationPoints written known⟩

/-- One part of the name is in the heap before, two are empty, and a blob follows. -/
theorem blobs_read_back_sample :
    (∃ index named,
      DocumentName.add (blobHeap.run {} [#[7], #[97]]).2 "/a//b" = .ok (index, named) ∧
      (do DocumentName.get (← BlobHeap.ofBytes (blobHeap.run named [#[1, 2]]).2.data) index) =
        .ok "/a//b") ∧
    declarationPoints 12 9 33 = .ok #[0, 0, 0, 24, 12, 9] ∧
      decode #[0, 0, 0, 24, 12, 9] 3 = .ok [⟨0, 3, 12, 9, 12, 33⟩] := by
  obtain ⟨succeeds, names, points⟩ := blobs_read_back
  obtain ⟨index, named, added⟩ := succeeds [#[7], #[97]] "/a//b" (by decide +kernel)
  have written : declarationPoints 12 9 33 = .ok #[0, 0, 0, 24, 12, 9] := by decide +kernel
  exact ⟨⟨index, named, added, (names _ [#[1, 2]] _ _ _ added).2.2⟩, written,
    (points 12 9 33 3 (by decide)).2 _ written⟩

end ClrDecompiler.Symbols
