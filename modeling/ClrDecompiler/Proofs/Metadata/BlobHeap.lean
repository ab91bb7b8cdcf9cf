/-
This file shows that the blobs that were added to a heap under construction are found in it,
whatever is added later.
-/

import ClrDecompiler.Metadata.Heap
import ClrDecompiler.Metadata.HeapBuilder
import ClrDecompiler.Proofs.Bytes.Compressed

namespace ClrDecompiler.Metadata

open Compressed Read

/-- The data has a blob at an index: its length in a compressed form and its bytes. -/
def StoresBlob (data : List UInt8) (index : Nat) (blob : Bytes) : Prop :=
  ∃ before length after : List UInt8, data = before ++ (length ++ (blob.toList ++ after)) ∧
    before.length = index ∧ UnsignedForm blob.size length

section

variable {data : List UInt8} {index : Nat} {blob : Bytes}

/-- More data behind a heap leave its blobs where they are. -/
theorem StoresBlob.append (stores : StoresBlob data index blob) (more : List UInt8) :
    StoresBlob (data ++ more) index blob := by
  obtain ⟨before, length, after, rfl, start, form⟩ := stores
  exact ⟨before, length, after ++ more, by simp only [List.append_assoc], start, form⟩

/-- A blob is stored at a place of the heap. -/
theorem StoresBlob.index_lt (stores : StoresBlob data index blob) : index < data.length := by
  obtain ⟨before, length, after, rfl, rfl, form⟩ := stores
  have positive := form.length_pos
  simp only [List.length_append]
  omega

/-- Heaps start with an empty blob. -/
theorem storesBlob_zero (rest : List UInt8) : StoresBlob (0 :: rest) 0 #[] :=
  ⟨[], [0], rest, rfl, rfl, .one (by decide)⟩

/-- A blob that is stored is found under its index. -/
theorem StoresBlob.get {heap : BlobHeap} (stores : StoresBlob heap.data.toList index blob) :
    heap.get index = .ok blob := by
  have inside := stores.index_lt
  obtain ⟨before, length, after, whole, rfl, form⟩ := stores
  have reads : BlobHeap.readBlob.Yields (length ++ (blob.toList ++ after)) blob after :=
    (inverts_compressedUnsigned form _).bind (yields_bytes blob.toList after)
  obtain ⟨used, -, runs⟩ := reads
  have present : ¬ heap.data.size ≤ before.length := Nat.not_le_of_lt inside
  rw [BlobHeap.get, if_neg present, runs heap.data before whole]

end

/-- Every entry of the builder is in its data, behind the empty blob. -/
structure BlobHeapBuilder.Sound (builder : BlobHeapBuilder) : Prop where
  start : ∃ rest, builder.data.toList = 0 :: rest
  entries : ∀ blob index, (blob, index) ∈ builder.entries →
    StoresBlob builder.data.toList index blob ∧ index ≠ 0

namespace BlobHeapBuilder

/-- An empty heap is sound. -/
theorem sound_start : Sound {} :=
  ⟨⟨[], rfl⟩, fun _ _ member => by cases member⟩

/-- What a successful addition leaves behind: the data has only grown and has the blob. -/
structure Extends (builder after : BlobHeapBuilder) : Prop where
  sound : after.Sound
  grows : ∃ more, after.data.toList = builder.data.toList ++ more

/-- A heap extends those that it extends through others. -/
theorem Extends.trans {builder middle after : BlobHeapBuilder} (first : Extends builder middle)
    (second : Extends middle after) : Extends builder after := by
  obtain ⟨more, grown⟩ := first.grows
  obtain ⟨others, later⟩ := second.grows
  exact ⟨second.sound, more ++ others, by rw [later, grown, List.append_assoc]⟩

/-- What was stored stays so in every later state. -/
theorem Extends.stores {builder after : BlobHeapBuilder} (extension : Extends builder after)
    {index : Nat} {blob : Bytes} (stores : StoresBlob builder.data.toList index blob) :
    StoresBlob after.data.toList index blob := by
  obtain ⟨more, grown⟩ := extension.grows
  rw [grown]
  exact stores.append more

/-- A heap extends itself. -/
theorem extends_refl {builder : BlobHeapBuilder} (sound : builder.Sound) :
    Extends builder builder :=
  ⟨sound, [], (List.append_nil _).symm⟩

/-- A blob is stored behind the data so far unless it is known. -/
theorem add_stores {builder after : BlobHeapBuilder} {blob : Bytes} {index : Nat}
    (sound : builder.Sound) (added : builder.add blob = .ok (index, after)) :
    Extends builder after ∧ StoresBlob after.data.toList index blob ∧ (index = 0 → blob = #[]) := by
  rw [add] at added
  split at added
  case isTrue empty =>
    cases added
    obtain ⟨rest, start⟩ := sound.start
    rw [Array.isEmpty_iff.mp empty, start]
    exact ⟨extends_refl sound, storesBlob_zero rest, fun _ => rfl⟩
  case isFalse nonempty =>
    cases found : builder.entries.lookup blob with
    | some known =>
      rw [found] at added
      cases added
      obtain ⟨earlier, later, listed, -⟩ := List.lookup_eq_some_iff.mp found
      have member : (blob, index) ∈ builder.entries := by
        rw [listed]
        exact List.mem_append_right _ List.mem_cons_self
      obtain ⟨stores, positive⟩ := sound.entries blob index member
      exact ⟨extends_refl sound, stores, fun zero => absurd zero positive⟩
    | none =>
      obtain ⟨rest, start⟩ := sound.start
      have positive : builder.data.size ≠ 0 := by
        rw [← Array.length_toList, start]
        exact Nat.succ_ne_zero _
      simp only [found, bind, Except.bind] at added
      split at added
      case isTrue => cases added
      case isFalse =>
        cases written : appendUnsigned builder.data blob.size with
        | error fault =>
          simp only [written] at added
          cases added
        | ok data =>
          simp only [written] at added
          cases added
          obtain ⟨length, form, same⟩ := appendUnsigned_eq_ok written
          have whole : (data ++ blob).toList = builder.data.toList ++ (length ++ blob.toList) := by
            rw [Array.toList_append, same, List.append_assoc]
          have stored : StoresBlob (data ++ blob).toList builder.data.size blob :=
            ⟨builder.data.toList, length, [], by rw [whole, List.append_nil],
              Array.length_toList, form⟩
          refine ⟨⟨⟨?_, ?_⟩, _, whole⟩, stored, fun zero => absurd zero positive⟩
          · exact ⟨rest ++ (length ++ blob.toList), by rw [whole, start, List.cons_append]⟩
          · intro other place member
            rcases List.mem_cons.mp member with same | earlier
            · cases same
              exact ⟨stored, positive⟩
            · obtain ⟨stores, apart⟩ := sound.entries other place earlier
              exact ⟨by rw [whole]; exact stores.append _, apart⟩

end BlobHeapBuilder

end ClrDecompiler.Metadata
