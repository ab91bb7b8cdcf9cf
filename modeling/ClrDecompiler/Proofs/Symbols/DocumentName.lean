/-
This file shows that the names of documents are read back from the blobs that hold their parts.
-/

import ClrDecompiler.Proofs.Metadata.BlobHeap
import ClrDecompiler.Proofs.Outcome
import ClrDecompiler.Proofs.Text.Utf8
import ClrDecompiler.Symbols.DocumentName

namespace ClrDecompiler.Text

theorem pieces_ne_nil (isSeparator : Char → Bool) (text : List Char) :
    pieces isSeparator text ≠ [] := by
  cases text with
  | nil => exact List.cons_ne_nil _ _
  | cons c rest =>
    rw [pieces]
    split
    · exact List.cons_ne_nil _ _
    · split <;> exact List.cons_ne_nil _ _

/-- The pieces with the separator between them are the text. -/
theorem intercalate_pieces (separator : Char) (text : List Char) :
    [separator].intercalate (pieces (· == separator) text) = text := by
  induction text with
  | nil => rfl
  | cons c rest ih =>
    obtain ⟨piece, others, same⟩ :=
      List.exists_cons_of_ne_nil (pieces_ne_nil (· == separator) rest)
    rw [same] at ih
    by_cases separates : c = separator
    · rw [pieces, if_pos (beq_iff_eq.mpr separates), same, List.intercalate_cons_cons, ih,
        separates]
      rfl
    · rw [pieces, if_neg (mt beq_iff_eq.mp separates), same]
      cases others with
      | nil =>
        rw [List.intercalate_singleton] at ih ⊢
        rw [ih]
      | cons next later =>
        rw [List.intercalate_cons_cons] at ih ⊢
        rw [← ih]
        rfl

/-- The parts of a text between separators make up the text again. -/
theorem intercalate_split (separator : Char) (text : String) :
    (String.singleton separator).intercalate (split separator text) = text := by
  apply String.toList_injective
  rw [String.toList_intercalate, split, List.map_map, String.toList_singleton]
  have same : String.toList ∘ String.ofList = id := funext fun _ => String.toList_ofList
  rw [same, List.map_id]
  exact intercalate_pieces separator text.toList

end ClrDecompiler.Text

namespace ClrDecompiler.Symbols.DocumentName

open Metadata Compressed Read

/-- A part of a name is the index of a blob. -/
def PartForm (data : List UInt8) (part : String) (encoding : List UInt8) : Prop :=
  ∃ index, UnsignedForm index encoding ∧ StoresBlob data index (Utf8.encode part)

/-- The data has a name at an index: the separator and the parts between separators. -/
def StoresName (data : List UInt8) (index : Nat) (name : String) : Prop :=
  ∃ encoding, Sequence (PartForm data) (Text.split separator name) encoding ∧
    StoresBlob data index (0x2F :: encoding).toArray

theorem PartForm.append {data encoding : List UInt8} {part : String}
    (form : PartForm data part encoding) (more : List UInt8) :
    PartForm (data ++ more) part encoding := by
  obtain ⟨index, number, stored⟩ := form
  exact ⟨index, number, stored.append more⟩

/-- More data behind a heap leave its names where they are. -/
theorem StoresName.append {data : List UInt8} {index : Nat} {name : String}
    (stores : StoresName data index name) (more : List UInt8) :
    StoresName (data ++ more) index name := by
  obtain ⟨encoding, form, text⟩ := stores
  exact ⟨encoding, form.imp fun _ _ _ part => part.append more, text.append more⟩

theorem StoresName.index_lt {data : List UInt8} {index : Nat} {name : String}
    (stores : StoresName data index name) : index < data.length := by
  obtain ⟨encoding, -, text⟩ := stores
  exact text.index_lt

theorem length_parts_le {data encoding : List UInt8} {parts : List String}
    (form : Sequence (PartForm data) parts encoding) : parts.length ≤ encoding.length := by
  induction form with
  | nil => exact Nat.le_refl _
  | cons head tail ih =>
    obtain ⟨index, number, -⟩ := head
    have positive := number.length_pos
    rw [List.length_cons, List.length_append]
    omega

/-- The parts of a name are read back one after the other. -/
theorem yields_readParts {blobs : BlobHeap} {parts : List String} {encoding : List UInt8}
    (form : Sequence (PartForm blobs.data.toList) parts encoding) (bound : Nat)
    (enough : parts.length ≤ bound) : (readParts blobs bound).Yields encoding parts [] := by
  induction form generalizing bound with
  | nil =>
    cases bound with
    | zero => exact yields_pure [] []
    | succ bound => exact (yields_hasMore []).bind (yields_pure [] [])
  | @cons part rest encoding others head tail ih =>
    obtain ⟨index, number, stored⟩ := head
    obtain ⟨bound, rfl⟩ : ∃ smaller, bound = smaller + 1 :=
      ⟨bound - 1, by rw [List.length_cons] at enough; omega⟩
    have more : (!(encoding ++ others).isEmpty) = true := by
      have positive := number.length_pos
      cases encoding with
      | nil => cases positive
      | cons => rfl
    apply (yields_hasMore _).bind
    rw [more]
    apply (inverts_compressedUnsigned number others).bind
    apply (yields_liftM stored.get others).bind
    apply (ih bound (Nat.le_of_succ_le_succ enough)).bind
    rw [Utf8.decodeLossy_encode]
    exact yields_pure _ []

/-- A name that is stored is read back. -/
theorem StoresName.get {blobs : BlobHeap} {index : Nat} {name : String}
    (stores : StoresName blobs.data.toList index name) : get blobs index = .ok name := by
  obtain ⟨encoding, form, text⟩ := stores
  have reads : (readName blobs).Yields (0x2F :: encoding) name [] := by
    refine (yields_word8 0x2F encoding).bind (yields_size fun bound large => ?_)
    apply (yields_readParts form bound (Nat.le_trans (length_parts_le form) large)).bind
    have joined : (String.singleton '/').intercalate (Text.split separator name) = name :=
      Text.intercalate_split separator name
    conv =>
      arg 3
      rw [← joined]
    exact yields_pure _ []
  rw [DocumentName.get, text.get]
  exact reads.runOn rfl

/-- The parts that are added so far stay in the heap while further ones are added. -/
theorem appendParts_stores {parts : List String} {blobs after : BlobHeapBuilder}
    {text result : Bytes} (sound : blobs.Sound)
    (added : appendParts blobs text parts = .ok (result, after)) :
    blobs.Extends after ∧ ∃ encoding, Sequence (PartForm after.data.toList) parts encoding ∧
      result.toList = text.toList ++ encoding := by
  induction parts generalizing blobs text with
  | nil =>
    cases added
    exact ⟨BlobHeapBuilder.extends_refl sound, [], .nil, (List.append_nil _).symm⟩
  | cons part rest ih =>
    rw [appendParts] at added
    obtain ⟨⟨index, middle⟩, stored, added⟩ := Outcome.of_bind_eq_ok added
    obtain ⟨written, numbered, added⟩ := Outcome.of_bind_eq_ok added
    obtain ⟨first, has, -⟩ := BlobHeapBuilder.add_stores sound stored
    obtain ⟨number, form, grown⟩ := appendUnsigned_eq_ok numbered
    obtain ⟨later, encoding, parts, whole⟩ := ih first.sound added
    refine ⟨first.trans later, number ++ encoding, .cons ⟨index, form, later.stores has⟩ parts, ?_⟩
    rw [whole, grown, List.append_assoc]

/-- A name that is added is stored, and what was stored before stays. -/
theorem add_stores {blobs after : BlobHeapBuilder} {name : String} {index : Nat}
    (sound : blobs.Sound) (added : add blobs name = .ok (index, after)) :
    blobs.Extends after ∧ StoresName after.data.toList index name := by
  obtain ⟨⟨text, middle⟩, appended, added⟩ := Outcome.of_bind_eq_ok added
  obtain ⟨first, encoding, parts, whole⟩ := appendParts_stores sound appended
  obtain ⟨second, stored, -⟩ := BlobHeapBuilder.add_stores first.sound added
  have same : text = (0x2F :: encoding).toArray := Array.toList_inj.mp whole
  obtain ⟨more, grown⟩ := second.grows
  refine ⟨first.trans second, encoding, ?_, ?_⟩
  · rw [grown]
    exact parts.imp fun _ _ _ part => part.append more
  · rw [← same]
    exact stored

end ClrDecompiler.Symbols.DocumentName
