/-
This file shows for each of the four heaps that what is added to it is read from its final data,
and for those that share entries that an index stands for one value.
-/

import ClrDecompiler.Metadata.Heap
import ClrDecompiler.Proofs.Metadata.BlobHeap
import ClrDecompiler.Proofs.Metadata.HeapRun
import ClrDecompiler.Proofs.Strict.Heap
import ClrDecompiler.Proofs.Text.Utf16
import ClrDecompiler.Proofs.Text.Utf8

namespace ClrDecompiler.Metadata

/-- Most heaps are recognised by the zero byte of their empty entry. -/
theorem getElem?_zero {data : Bytes} (start : ∃ rest, data.toList = 0 :: rest) :
    data[0]? = some 0 := by
  obtain ⟨rest, whole⟩ := start
  rw [← Array.getElem?_toList, whole]
  rfl

/-! An entry that is shared by equal values. -/

section Sharing

variable {ν : Type} [BEq ν] [LawfulBEq ν]

/-- The index of an entry that equal values share. The empty value is in every heap. -/
def sharedIndex? (isEmpty : ν → Bool) (entries : List (ν × Nat)) (value : ν) : Option Nat :=
  if isEmpty value then some 0 else entries.lookup value

variable {isEmpty : ν → Bool} {entries : List (ν × Nat)} {value : ν} {index : Nat}

/-- A value is shared if it is empty or if it was added before. -/
theorem sharedIndex?_eq_some (known : sharedIndex? isEmpty entries value = some index) :
    isEmpty value = true ∧ index = 0 ∨ (value, index) ∈ entries := by
  unfold sharedIndex? at known
  split at known
  · next empty =>
    cases known
    exact .inl ⟨empty, rfl⟩
  · obtain ⟨earlier, later, listed, -⟩ := List.lookup_eq_some_iff.mp known
    rw [listed]
    exact .inr (List.mem_append_right _ List.mem_cons_self)

/-- A new entry is found, and so are the ones before it. -/
theorem sharedIndex?_cons (index : Nat) (new : sharedIndex? isEmpty entries value = none) :
    sharedIndex? isEmpty ((value, index) :: entries) value = some index ∧
      ∀ other place, sharedIndex? isEmpty entries other = some place →
        sharedIndex? isEmpty ((value, index) :: entries) other = some place := by
  unfold sharedIndex? at *
  split at new
  · cases new
  · next filled =>
    refine ⟨by simp [filled], ?_⟩
    intro other place known
    by_cases empty : isEmpty other = true
    · simpa [empty] using known
    · have apart : (other == value) = false := by
        apply beq_false_of_ne
        intro same
        simp [same, filled, new] at known
      simpa [empty, apart, List.lookup_cons] using known

end Sharing

/-- The data has a text at an index, with a zero byte behind it. -/
def StoresText (data : List UInt8) (index : Nat) (text : String) : Prop :=
  ∃ before after : List UInt8, data = before ++ ((Utf8.encode text).toList ++ 0 :: after) ∧
    before.length = index

/-- A text that a zero byte can end. -/
def IsPlainText (text : String) : Prop :=
  '\x00' ∉ text.toList

instance (text : String) : Decidable (IsPlainText text) :=
  inferInstanceAs (Decidable ('\x00' ∉ text.toList))

section

variable {data : List UInt8} {index : Nat} {text : String}

/-- More data behind a heap leave its texts where they are. -/
theorem StoresText.append (stores : StoresText data index text) (more : List UInt8) :
    StoresText (data ++ more) index text := by
  obtain ⟨before, after, rfl, start⟩ := stores
  exact ⟨before, after ++ more, by simp, start⟩

/-- A text is stored at a place of the heap. -/
theorem StoresText.index_lt (stores : StoresText data index text) : index < data.length := by
  obtain ⟨before, after, rfl, rfl⟩ := stores
  simp only [List.length_append, List.length_cons]
  omega

/-- The text is what is before the first zero byte. -/
theorem StoresText.get {heap : StringHeap} (stores : StoresText heap.data.toList index text)
    (plain : IsPlainText text) : heap.get index = .ok text := by
  have inside : ¬ heap.data.size ≤ index := Nat.not_le_of_lt stores.index_lt
  obtain ⟨before, after, whole, rfl⟩ := stores
  have nonzero : (Utf8.encode text).toList.findIdx? (· = 0) = none := by
    simp only [List.findIdx?_eq_none_iff, decide_eq_false_iff_not]
    intro byte member zero
    exact Utf8.zero_not_mem_encode plain (zero ▸ member)
  have stop : zeroFrom? heap.data before.length =
      some (before.length + (Utf8.encode text).toList.length) := by
    rw [zeroFrom?_eq, whole, List.drop_left, List.findIdx?_append, nonzero]
    simp [List.findIdx?_cons]
  rw [StringHeap.get, if_neg inside, stop]
  simp only [Bytes.extract_middle whole, Utf8.decode_encode]

end

namespace StringHeapBuilder

/-- Every entry of the builder is in its data, behind the empty text. -/
structure Sound (builder : StringHeapBuilder) : Prop where
  start : ∃ rest, builder.data.toList = 0 :: rest
  entries : ∀ text index, (text, index) ∈ builder.entries →
    StoresText builder.data.toList index text ∧ IsPlainText text

def Holds (builder : StringHeapBuilder) (text : String) (index : Nat) : Prop :=
  sharedIndex? String.isEmpty builder.entries text = some index

/-- A text that is not shared is put at the end of the heap. -/
theorem add_eq (builder : StringHeapBuilder) (text : String) :
    builder.add text = match sharedIndex? String.isEmpty builder.entries text with
      | some index => (index, builder)
      | none => (builder.data.size,
        { data := (builder.data ++ Utf8.encode text).push 0
          entries := (text, builder.data.size) :: builder.entries }) := by
  rw [add, sharedIndex?]
  split <;> rfl

theorem Sound.stores {builder : StringHeapBuilder} {text : String} {index : Nat}
    (sound : builder.Sound) (holds : builder.Holds text index) :
    StoresText builder.data.toList index text ∧ IsPlainText text := by
  obtain ⟨empty, rfl⟩ | member := sharedIndex?_eq_some holds
  · obtain ⟨rest, start⟩ := sound.start
    rw [String.isEmpty_iff.mp empty, start]
    exact ⟨⟨[], rest, rfl, rfl⟩, by simp [IsPlainText]⟩
  · exact sound.entries text index member

end StringHeapBuilder

def stringHeap : HeapKind StringHeapBuilder String where
  start := {}
  add builder text := .ok (builder.add text)
  insert := StringHeapBuilder.insert
  insert_performs := StringHeapBuilder.insert_performs
  data builder := builder.data
  read bytes index := do (← StringHeap.ofBytes bytes).get index

/-- The heap of texts reads every addition back and shares equal texts. -/
theorem lawful_stringHeap :
    stringHeap.Lawful IsPlainText StringHeapBuilder.Sound StringHeapBuilder.Holds where
  start := ⟨⟨[], rfl⟩, fun _ _ member => by cases member⟩
  add := by
    intro builder after text index sound plain added
    have added : builder.add text = (index, after) := Except.ok.inj added
    rw [StringHeapBuilder.add_eq] at added
    cases known : sharedIndex? String.isEmpty builder.entries text with
    | some place =>
      rw [known] at added
      cases added
      exact ⟨.refl sound, known⟩
    | none =>
      rw [known] at added
      cases added
      obtain ⟨found, kept⟩ := sharedIndex?_cons builder.data.size known
      -- The new text comes behind all data of before, so the other texts stay where they are.
      have whole : ((builder.data ++ Utf8.encode text).push 0).toList =
          builder.data.toList ++ ((Utf8.encode text).toList ++ [0]) := by simp
      refine ⟨⟨⟨?_, ?_⟩, fun holds => kept _ _ holds⟩, found⟩
      · obtain ⟨rest, start⟩ := sound.start
        exact ⟨rest ++ ((Utf8.encode text).toList ++ [0]), by rw [whole, start, List.cons_append]⟩
      · intro other place member
        rw [whole]
        cases member with
        | head => exact ⟨⟨_, [], rfl, Array.length_toList⟩, plain⟩
        | tail _ member =>
          obtain ⟨stores, plainOther⟩ := sound.entries other place member
          exact ⟨stores.append _, plainOther⟩
  read := by
    intro builder text index sound holds
    obtain ⟨stores, plain⟩ := sound.stores holds
    have first := getElem?_zero sound.start
    refine ⟨?_, Nat.le_of_lt stores.index_lt⟩
    show (StringHeap.ofBytes builder.data >>= fun heap => heap.get index) = .ok text
    rw [StringHeap.ofBytes, if_pos first]
    show StringHeap.get ⟨builder.data⟩ index = .ok text
    exact StoresText.get stores plain

namespace BlobHeapBuilder

def Holds (builder : BlobHeapBuilder) (blob : Bytes) (index : Nat) : Prop :=
  sharedIndex? Array.isEmpty builder.entries blob = some index

/-- A successful addition has found the entry of the blob or noted a new one. -/
theorem add_entries {builder after : BlobHeapBuilder} {blob : Bytes} {index : Nat}
    (added : builder.add blob = .ok (index, after)) :
    sharedIndex? Array.isEmpty builder.entries blob = some index ∧
        after.entries = builder.entries ∨
      sharedIndex? Array.isEmpty builder.entries blob = none ∧
        after.entries = (blob, index) :: builder.entries := by
  unfold add at added
  unfold sharedIndex?
  split at added
  · next empty =>
    cases added
    exact .inl ⟨if_pos empty, rfl⟩
  · next filled =>
    rw [if_neg filled]
    split at added
    · next known =>
      cases added
      exact .inl ⟨known, rfl⟩
    · next unknown =>
      split at added
      · cases added
      · obtain ⟨data, -, later⟩ := Outcome.of_bind_eq_ok added
        cases later
        exact .inr ⟨unknown, rfl⟩

theorem Sound.stores {builder : BlobHeapBuilder} {blob : Bytes} {index : Nat}
    (sound : builder.Sound) (holds : builder.Holds blob index) :
    StoresBlob builder.data.toList index blob := by
  obtain ⟨empty, rfl⟩ | member := sharedIndex?_eq_some holds
  · obtain ⟨rest, start⟩ := sound.start
    rw [Array.isEmpty_iff.mp empty, start]
    exact storesBlob_zero rest
  · exact (sound.entries blob index member).1

end BlobHeapBuilder

def blobHeap : HeapKind BlobHeapBuilder Bytes where
  start := {}
  add := BlobHeapBuilder.add
  insert := BlobHeapBuilder.insert
  insert_performs := BlobHeapBuilder.insert_performs
  data builder := builder.data
  read bytes index := do (← BlobHeap.ofBytes bytes).get index

/-- The heap of blobs reads every addition back and shares equal blobs. -/
theorem lawful_blobHeap :
    blobHeap.Lawful (fun _ => True) BlobHeapBuilder.Sound BlobHeapBuilder.Holds where
  start := BlobHeapBuilder.sound_start
  add := by
    intro builder after blob index sound _ added
    have grown := (BlobHeapBuilder.add_stores sound added).1.sound
    unfold BlobHeapBuilder.Holds
    obtain ⟨known, same⟩ | ⟨unknown, noted⟩ := BlobHeapBuilder.add_entries added
    · rw [same]
      exact ⟨⟨grown, fun holds => same ▸ holds⟩, known⟩
    · rw [noted]
      obtain ⟨found, kept⟩ := sharedIndex?_cons index unknown
      exact ⟨⟨grown, fun holds => noted ▸ kept _ _ holds⟩, found⟩
  read := by
    intro builder blob index sound holds
    have stores := sound.stores holds
    have first := getElem?_zero sound.start
    refine ⟨?_, Nat.le_of_lt stores.index_lt⟩
    show (BlobHeap.ofBytes builder.data >>= fun heap => heap.get index) = .ok blob
    rw [BlobHeap.ofBytes, if_pos first]
    show BlobHeap.get ⟨builder.data⟩ index = .ok blob
    exact StoresBlob.get stores

namespace GuidHeapBuilder

def IsGuid (guid : Bytes) : Prop :=
  guid.size = 16

instance (guid : Bytes) : Decidable (IsGuid guid) :=
  inferInstanceAs (Decidable (guid.size = 16))

def Sound (builder : GuidHeapBuilder) : Prop :=
  ∀ guid ∈ builder.entries, IsGuid guid

def Holds (builder : GuidHeapBuilder) (guid : Bytes) (index : Nat) : Prop :=
  (builder.entries.findIdx? (· == guid)).map (· + 1) = some index

/-- The heap is made of its entries in order. -/
theorem toList_data (builder : GuidHeapBuilder) :
    builder.data.toList = builder.entries.flatMap Array.toList := by
  have start (entries : List Bytes) (data : Bytes) :
      (entries.foldl (· ++ ·) data).toList = data.toList ++ entries.flatMap Array.toList := by
    induction entries generalizing data with
    | nil => simp
    | cons guid rest ih => simp [ih]
  exact start builder.entries #[]

/-- Every entry takes sixteen bytes. -/
theorem length_flatMap {entries : List Bytes} (guids : ∀ guid ∈ entries, IsGuid guid) :
    (entries.flatMap Array.toList).length = entries.length * 16 := by
  induction entries with
  | nil => rfl
  | cons guid rest ih =>
    have size : guid.size = 16 := guids guid List.mem_cons_self
    simp [ih (List.forall_mem_of_forall_mem_cons guids), size]
    omega

/-- The identifiers take 16 bytes each. -/
theorem Sound.size {builder : GuidHeapBuilder} (sound : builder.Sound) :
    builder.data.size = builder.entries.length * 16 := by
  rw [← Array.length_toList, toList_data, length_flatMap sound]

/-- The place of an identifier counts the ones before it. -/
theorem Sound.slice {builder : GuidHeapBuilder} {guid : Bytes} {position : Nat}
    (sound : builder.Sound) (found : builder.entries.findIdx? (· == guid) = some position) :
    builder.data.slice? (position * 16) 16 = some guid ∧ position < builder.entries.length := by
  obtain ⟨inside, same, -⟩ := List.findIdx?_eq_some_iff_getElem.mp found
  have listed : builder.entries =
      builder.entries.take position ++ guid :: builder.entries.drop (position + 1) := by
    rw [← beq_iff_eq.mp same, List.getElem_cons_drop, List.take_append_drop]
  have whole : builder.data.toList = (builder.entries.take position).flatMap Array.toList ++
      (guid.toList ++ (builder.entries.drop (position + 1)).flatMap Array.toList) := by
    rw [toList_data]
    conv_lhs => rw [listed]
    simp
  have before : ((builder.entries.take position).flatMap Array.toList).length = position * 16 := by
    rw [length_flatMap fun guid member => sound guid (List.mem_of_mem_take member),
      List.length_take, Nat.min_eq_left (Nat.le_of_lt inside)]
  have size : guid.toList.length = 16 := by
    rw [Array.length_toList]
    exact sound guid (listed ▸ List.mem_append_right _ List.mem_cons_self)
  have cut := Bytes.slice?_middle whole
  rw [before, size] at cut
  exact ⟨cut, inside⟩

end GuidHeapBuilder

def guidHeap : HeapKind GuidHeapBuilder Bytes where
  start := {}
  add builder guid := .ok (builder.add guid)
  insert := GuidHeapBuilder.insert
  insert_performs := GuidHeapBuilder.insert_performs
  data := GuidHeapBuilder.data
  read bytes index := do (← GuidHeap.ofBytes bytes).get index

/-- The heap of identifiers reads every addition back and shares equal ones. -/
theorem lawful_guidHeap :
    guidHeap.Lawful GuidHeapBuilder.IsGuid GuidHeapBuilder.Sound GuidHeapBuilder.Holds where
  start := fun _ member => by cases member
  add := by
    intro builder after guid index sound plain added
    have added : builder.add guid = (index, after) := Except.ok.inj added
    unfold GuidHeapBuilder.add at added
    cases known : builder.entries.findIdx? (· == guid) with
    | some position =>
      rw [known] at added
      cases added
      exact ⟨.refl sound, by simp [GuidHeapBuilder.Holds, known]⟩
    | none =>
      rw [known] at added
      cases added
      refine ⟨⟨?_, ?_⟩, by simp [GuidHeapBuilder.Holds, List.findIdx?_append, known]⟩
      · intro other member
        obtain earlier | last := List.mem_append.mp member
        · exact sound other earlier
        · rw [List.mem_singleton.mp last]
          exact plain
      · intro other place holds
        obtain ⟨position, found, rfl⟩ := Option.map_eq_some_iff.mp holds
        simp [GuidHeapBuilder.Holds, List.findIdx?_append, found]
  read := by
    intro builder guid index sound holds
    obtain ⟨position, found, rfl⟩ := Option.map_eq_some_iff.mp holds
    obtain ⟨cut, inside⟩ := sound.slice found
    have size := sound.size
    have whole : builder.data.size % 16 = 0 := by rw [size, Nat.mul_mod_left]
    constructor
    · show (GuidHeap.ofBytes builder.data >>= fun heap => heap.get (position + 1)) = .ok guid
      rw [GuidHeap.ofBytes, if_pos whole]
      show GuidHeap.get ⟨builder.data⟩ (position + 1) = .ok guid
      rw [GuidHeap.get, if_neg (Nat.succ_ne_zero position), Nat.add_sub_cancel, cut]
      rfl
    · show position + 1 ≤ builder.data.size
      omega

namespace UserStringHeapBuilder

/-- The bytes of an entry behind its length. -/
def entry (text : String) : Bytes :=
  let units := Utf16.encode text
  (encodeUnits units ++ [if units.any isSpecial then 1 else 0]).toArray

def Sound (builder : UserStringHeapBuilder) : Prop :=
  ∃ rest, builder.data.toList = 0 :: rest

def Holds (builder : UserStringHeapBuilder) (text : String) (index : Nat) : Prop :=
  StoresBlob builder.data.toList index (entry text)

/-- The units of a literal are read back without its flag. -/
theorem units_encodeUnits (units : List UInt16) (flag : UInt8) :
    Utf16.units (encodeUnits units ++ [flag]) = units := by
  induction units with
  | nil => rfl
  | cons unit rest ih =>
    have small : unit.toNat < 0x10000 := unit.toNat_lt
    have low : (UInt8.ofNat (unit.toNat % 256)).toNat = unit.toNat % 256 :=
      UInt8.toNat_ofNat_of_lt' (Nat.mod_lt _ (by decide))
    have high : (UInt8.ofNat (unit.toNat / 256 % 256)).toNat = unit.toNat / 256 % 256 :=
      UInt8.toNat_ofNat_of_lt' (Nat.mod_lt _ (by decide))
    have value : unit.toNat % 256 + unit.toNat / 256 % 256 * 0x100 = unit.toNat := by omega
    show UInt16.ofNat (_ + _) :: Utf16.units (encodeUnits rest ++ [flag]) = unit :: rest
    rw [low, high, value, UInt16.ofNat_toNat, ih]

/-- A text takes two bytes for each unit and one for its flag. -/
theorem size_entry (text : String) : (entry text).size = (Utf16.encode text).length * 2 + 1 := by
  simp [entry, encodeUnits, List.length_flatMap, List.map_const', Bytes.littleEndian_length]

/-- An addition writes the size of the entry, the units of the text and the flag. -/
theorem add_eq_ok {builder after : UserStringHeapBuilder} {text : String} {index : Nat}
    (added : builder.add text = .ok (index, after)) :
    ∃ size, Compressed.encodeUnsigned ((Utf16.encode text).length * 2 + 1) = .ok size ∧
      index = builder.data.size ∧
      after.data.toList = builder.data.toList ++ size ++ (entry text).toList := by
  unfold add at added
  dsimp only at added
  split at added
  · cases added
  · obtain ⟨data, written, later⟩ := Outcome.of_bind_eq_ok added
    cases later
    obtain ⟨size, encoded, rfl⟩ := Outcome.of_map_eq_ok written
    exact ⟨size, encoded, rfl, by simp [entry]⟩

/-- A literal is stored at the end of the heap. -/
theorem add_stores {builder after : UserStringHeapBuilder} {text : String} {index : Nat}
    (added : builder.add text = .ok (index, after)) :
    Holds after text index ∧ ∃ more, after.data.toList = builder.data.toList ++ more := by
  obtain ⟨size, encoded, place, grown⟩ := add_eq_ok added
  have form := Compressed.encodeUnsigned_eq_ok encoded
  rw [← size_entry] at form
  rw [List.append_assoc] at grown
  refine ⟨⟨builder.data.toList, size, [], ?_, ?_, form⟩, _, grown⟩
  · rw [grown, List.append_nil]
  · rw [place, Array.length_toList]

end UserStringHeapBuilder

def userStringHeap : HeapKind UserStringHeapBuilder String where
  start := {}
  add := UserStringHeapBuilder.add
  insert := UserStringHeapBuilder.insert
  insert_performs := UserStringHeapBuilder.insert_performs
  data builder := builder.data
  read bytes index := do (← UserStringHeap.ofBytes bytes).get index

/-- The heap of literals reads every addition back. -/
theorem lawful_userStringHeap :
    userStringHeap.Lawful (fun _ => True) UserStringHeapBuilder.Sound
      UserStringHeapBuilder.Holds where
  start := ⟨[], rfl⟩
  add := by
    intro builder after text index sound _ added
    obtain ⟨holds, more, grown⟩ := UserStringHeapBuilder.add_stores added
    refine ⟨⟨?_, ?_⟩, holds⟩
    · obtain ⟨rest, start⟩ := sound
      exact ⟨rest ++ more, by rw [grown, start, List.cons_append]⟩
    · intro other place held
      unfold UserStringHeapBuilder.Holds
      rw [grown]
      exact held.append more
  read := by
    intro builder text index sound holds
    have first := getElem?_zero sound
    have inside : ¬ builder.data.size ≤ index := Nat.not_le_of_lt holds.index_lt
    have blob : BlobHeap.get ⟨builder.data⟩ index = .ok (UserStringHeapBuilder.entry text) :=
      StoresBlob.get holds
    rw [BlobHeap.get, if_neg inside] at blob
    refine ⟨?_, Nat.le_of_lt holds.index_lt⟩
    show (UserStringHeap.ofBytes builder.data >>= fun heap => heap.get index) = .ok text
    rw [UserStringHeap.ofBytes, if_pos first]
    show UserStringHeap.get ⟨builder.data⟩ index = .ok text
    rw [UserStringHeap.get, if_neg inside, blob]
    simp [UserStringHeapBuilder.entry, UserStringHeapBuilder.units_encodeUnits, Except.map,
      Utf16.decode_encode]

section

variable {texts literals : List String} {blobs guids : List Bytes}

/-- Every index that an addition gave leads to the added value in the final data of its heap, the
indexes of texts, blobs and identifiers are shared by equal values only, and no addition that is
refused changes its heap. -/
theorem additions_read_back (plain : ∀ text ∈ texts, IsPlainText text)
    (sized : ∀ guid ∈ guids, GuidHeapBuilder.IsGuid guid)
    (smallTexts : (stringHeap.image texts).size < UInt32.size)
    (smallBlobs : (blobHeap.image blobs).size < UInt32.size)
    (smallGuids : (guidHeap.image guids).size < UInt32.size)
    (smallLiterals : (userStringHeap.image literals).size < UInt32.size) :
    (stringHeap.ReadsBack texts ∧ blobHeap.ReadsBack blobs ∧ guidHeap.ReadsBack guids ∧
      userStringHeap.ReadsBack literals) ∧
    (stringHeap.Shares texts ∧ blobHeap.Shares blobs ∧ guidHeap.Shares guids) ∧
    stringHeap.AddsWhole ∧ blobHeap.AddsWhole ∧ guidHeap.AddsWhole ∧ userStringHeap.AddsWhole := by
  have any {ν : Type} (values : List ν) : ∀ value ∈ values, True := fun _ _ => trivial
  have single {answer : Option Nat} {first second : Nat} (found : answer = some first)
      (again : answer = some second) : first = second :=
    Option.some.inj (found.symm.trans again)
  refine ⟨⟨?_, ?_, ?_, ?_⟩, ⟨?_, ?_, ?_⟩, stringHeap.insert_performs, blobHeap.insert_performs,
    guidHeap.insert_performs, userStringHeap.insert_performs⟩
  · exact lawful_stringHeap.readsBack plain smallTexts
  · exact lawful_blobHeap.readsBack (any blobs) smallBlobs
  · exact lawful_guidHeap.readsBack sized smallGuids
  · exact lawful_userStringHeap.readsBack (any literals) smallLiterals
  · exact lawful_stringHeap.shares plain fun _ _ _ _ => single
  · exact lawful_blobHeap.shares (any blobs) fun _ _ _ _ => single
  · exact lawful_guidHeap.shares sized fun _ _ _ _ => single

end

/-- An empty value and a repeated one in each heap that shares them. -/
theorem additions_read_back_sample :
    stringHeap.ReadsBack ["", "é", "a", "é"] ∧ stringHeap.Shares ["", "é", "a", "é"] ∧
      blobHeap.ReadsBack [#[7, 0], #[], #[7, 0]] ∧ blobHeap.Shares [#[7, 0], #[], #[7, 0]] ∧
      guidHeap.ReadsBack [Array.replicate 16 7, Array.replicate 16 0, Array.replicate 16 7] ∧
      userStringHeap.ReadsBack ["", "don't", "", "𝄞"] := by
  obtain ⟨⟨texts, blobs, guids, literals⟩, ⟨sharedTexts, sharedBlobs, -⟩, -⟩ :=
    @additions_read_back ["", "é", "a", "é"] ["", "don't", "", "𝄞"] [#[7, 0], #[], #[7, 0]]
      [Array.replicate 16 7, Array.replicate 16 0, Array.replicate 16 7] (by decide +kernel)
      (by decide +kernel) (by decide +kernel) (by decide +kernel) (by decide +kernel)
      (by decide +kernel)
  exact ⟨texts, sharedTexts, blobs, sharedBlobs, guids, literals⟩

end ClrDecompiler.Metadata
