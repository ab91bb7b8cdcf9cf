/-
This file looks up the entries of the heaps with accesses that are made without asking, and shows
that they stay in range whatever the indexes and the lengths in the heaps are.
-/

import ClrDecompiler.Module.Load
import ClrDecompiler.Proofs.Strict.Root

namespace ClrDecompiler

open Metadata

theorem toList_extract_size {α : Type} (items : Array α) (start : Nat) :
    (items.extract start items.size).toList = items.toList.drop start := by
  have whole : items.size - start = (items.toList.drop start).length := by
    rw [List.length_drop, Array.length_toList]
  rw [Array.toList_extract, List.extract, whole, List.take_length]

/-- The end of a text is the first zero byte of what follows its start. -/
theorem Metadata.zeroFrom?_eq (data : Bytes) (position : Nat) :
    zeroFrom? data position =
      ((data.toList.drop position).findIdx? (· = 0)).map (position + ·) := by
  fun_induction zeroFrom? data position with
  | case1 position inside zero =>
    rw [List.drop_eq_getElem_cons (by exact inside), List.findIdx?_cons]
    simp [zero]
  | case2 position inside nonzero ih =>
    rw [List.drop_eq_getElem_cons (by exact inside), List.findIdx?_cons, ih,
      if_neg (by simpa using nonzero), Option.map_map]
    congr 1
    funext stop
    exact Nat.add_right_comm position 1 stop
  | case3 position outside =>
    rw [List.drop_eq_nil_of_le (by simpa using outside)]
    rfl

namespace Strict

open ClrDecompiler.Module

/-- A heap starts with its empty entry. -/
def startsEmpty (data : Bytes) (fault : Fault) : Run Unit := do
  if data.isEmpty then throw (.refused fault)
  if (← item data 0) ≠ 0 then throw (.refused fault)
  return ()

def stringHeap (data : Bytes) : Run StringHeap := do
  startsEmpty data (.malformed .stringHeap)
  return ⟨data⟩

def blobHeap (data : Bytes) : Run BlobHeap := do
  startsEmpty data (.malformed .blobHeap)
  return ⟨data⟩

def guidHeap (data : Bytes) : Run GuidHeap := do
  if data.size % 16 ≠ 0 then throw (.refused (.malformed (.guidHeap data.size)))
  return ⟨data⟩

def getString (heap : StringHeap) (index : Nat) : Run String := do
  if heap.data.size ≤ index then throw (.refused .outOfBounds)
  let rest := (← tail heap.data index).toList
  match rest.findIdx? (· = 0) with
  | none => throw (.refused (.malformed (.stringIndex index)))
  | some stop =>
    match Utf8.decode (rest.take stop) with
    | .ok text => return text
    | .error _ => throw (.refused (.malformed (.stringIndex index)))

/-- A length with the number of bytes that it takes. -/
def scanLength : Scan (Nat × Nat) := do
  let length ← Scan.compressedUnsigned
  return (length, (← get).position)

def getBlob (heap : BlobHeap) (index : Nat) : Run Bytes := do
  if heap.data.size ≤ index then throw (.refused .outOfBounds)
  let (length, skip) ← scanLength.runFrom (← tail heap.data index) 0
  let start ← checked (index + skip) .outOfBounds
  let stop ← checked (start + length) .outOfBounds
  if heap.data.size < stop then throw (.refused .outOfBounds)
  slice heap.data start stop

def getGuid (heap : GuidHeap) (index : Nat) : Run Bytes := do
  if index < 1 then throw (.refused .outOfBounds)
  if heap.data.size < (← product index 16) then throw (.refused .outOfBounds)
  let start ← product (← difference index 1) 16
  copy 16 (← slice heap.data start (← sum start 16))

def readHeaps (root : Root) (data : Bytes) : Run Heaps := do
  let strings ← (← streamData? root data "#Strings").mapM stringHeap
  let blobs ← (← streamData? root data "#Blob").mapM blobHeap
  let guids ← (← streamData? root data "#GUID").mapM guidHeap
  return { strings, blobs, guids, userStrings := (← streamData? root data "#US").getD #[] }

def string (heaps : Heaps) (index : UInt32) : Run String :=
  if index = 0 then .ok ""
  else match heaps.strings with
    | some strings => getString strings index.toNat
    | none => .error (.refused (.malformed .stringHeapMissing))

def blob (heaps : Heaps) (index : UInt32) : Run Bytes :=
  if index = 0 then .ok #[]
  else match heaps.blobs with
    | some blobs => getBlob blobs index.toNat
    | none => .error (.refused (.malformed .blobHeapMissing))

def guid? (heaps : Heaps) (index : UInt32) : Run (Option Bytes) :=
  match heaps.guids with
  | some guids => attempt (getGuid guids index.toNat)
  | none => .ok none

/-- The check of the first byte of a heap refuses exactly the heaps without an empty entry. -/
theorem settles_startsEmpty {α : Type} (data : Bytes) (fault : Fault) (value : α) :
    Settles (do startsEmpty data fault; return value)
      (if data[0]? = some 0 then .ok value else .error fault) := by
  by_cases empty : data = #[]
  · subst empty
    exact .refused fault
  · have inside : 0 < data.size := Array.size_pos_iff.mpr empty
    have first : data[0]? = some data[0] := Array.getElem?_eq_getElem inside
    have filled : ¬ data.isEmpty = true := by simpa using empty
    rw [startsEmpty, if_neg filled, item_eq_ok first, first]
    by_cases zero : data[0] = 0
    · rw [zero]
      exact .value value
    · have refused : ¬ some data[0] = some 0 := mt Option.some.inj zero
      rw [if_neg refused]
      change Settles (do (if data[0] ≠ 0 then throw (.refused fault) else pure ()); pure value) _
      rw [if_pos zero]
      exact .refused fault

/-- The heap of identifiers is opened by both loaders alike. -/
theorem settles_guidHeap (data : Bytes) : Settles (guidHeap data) (GuidHeap.ofBytes data) := by
  rw [guidHeap, GuidHeap.ofBytes]
  by_cases whole : data.size % 16 = 0
  · rw [if_neg (not_not_intro whole), if_pos whole]
    exact .value _
  · rw [if_pos whole, if_neg whole]
    exact .refused _

/-- Texts are found without leaving the heap. -/
theorem settles_getString (heap : StringHeap) (index : Nat) :
    Settles (getString heap index) (heap.get index) := by
  refine .ite Iff.rfl (fun _ => .refused _) fun outside => ?_
  have inside : index ≤ heap.data.size := Nat.le_of_not_le outside
  refine .access (tail_eq_ok inside) ?_
  rw [zeroFrom?_eq, toList_extract_size]
  cases found : (heap.data.toList.drop index).findIdx? (· = 0) with
  | none =>
    simp only [found]
    exact .refused _
  | some stop =>
    have text : (heap.data.extract index (index + stop)).toList =
        (heap.data.toList.drop index).take stop := by
      rw [Array.toList_extract, List.extract, Nat.add_sub_cancel_left]
    simp only [found, Option.map_some, text]
    cases Utf8.decode ((heap.data.toList.drop index).take stop) with
    | ok text => exact .value text
    | error flaw => exact .refused _

/-- Blobs are found without leaving the heap. -/
theorem settles_getBlob {heap : BlobHeap} (addressable : IsAddressable heap.data) (index : Nat) :
    Settles (getBlob heap index) (heap.get index) := by
  have limit : heap.data.size < 2 ^ 63 := addressable
  refine .ite Iff.rfl (fun _ => .refused _) fun outside => ?_
  have inside : index ≤ heap.data.size := Nat.le_of_not_le outside
  have rest : heap.data.extract index heap.data.size = (heap.data.toList.drop index).toArray :=
    Array.ext' (toList_extract_size heap.data index)
  obtain ⟨outcome, used, within, here, alone⟩ :=
    Read.Local.runAt_drop Read.local_compressedUnsigned inside
  have follows : Follows 0 Scan.compressedUnsigned Read.compressedUnsigned :=
    .compressedUnsigned
  have ends := follows _ 0 (addressable.extract index heap.data.size)
  rw [rest, alone] at ends
  have scanned : Settles (scanLength.runFrom (heap.data.toList.drop index).toArray 0)
      (outcome.map fun length => (length, used)) := by
    rw [Scan.runFrom, scanLength, Scan.runAt_bind]
    revert ends
    generalize Scan.compressedUnsigned.runAt _ _ = strictEnd
    intro ends
    cases ends with
    | ok length after => exact .value (length, used)
    | refused fault le => exact .refused fault
  refine .access (tail_eq_ok inside) ?_
  have asked : (BlobHeap.readBlob.runAt heap.data index).1 =
      outcome.map (fun length => (length, used)) >>= fun read =>
        Bytes.orOutOfBounds (heap.data.slice? (index + read.2) read.1) := by
    rw [BlobHeap.readBlob, Read.runAt_bind, here]
    cases outcome with
    | error fault => rfl
    | ok length => exact Read.runAt_bytes length heap.data (index + used)
  rw [asked, rest]
  refine scanned.bind ?_
  rintro ⟨length, skip⟩ -
  dsimp only
  have refused (large : heap.data.size < index + skip + length) :
      Bytes.orOutOfBounds (heap.data.slice? (index + skip) length) = .error .outOfBounds := by
    rw [Bytes.slice?, if_neg (Nat.not_le_of_lt large)]
    rfl
  have word : heap.data.size < wordLimit := by
    rw [wordLimit]
    omega
  refine Agree.checked word (fun large => refused (by omega)) (.checked word refused ?_)
  by_cases fits : index + skip + length ≤ heap.data.size
  · rw [if_neg (Nat.not_lt_of_le fits), slice_eq_ok (Nat.le_add_right _ _) fits, Bytes.slice?,
      if_pos fits]
    exact .value _
  · rw [if_pos (Nat.lt_of_not_le fits), refused (Nat.lt_of_not_le fits)]
    exact .refused _

/-- The place of an identifier is computed without an overflow. -/
theorem settles_getGuid (heap : GuidHeap) {index : Nat} (small : index < 2 ^ 32) :
    Settles (getGuid heap index) (heap.get index) := by
  rw [getGuid, GuidHeap.get]
  refine .ite Nat.lt_one_iff (fun _ => .refused _) fun positive => ?_
  have before : difference index 1 = .ok (index - 1) := difference_eq_ok (by omega)
  have start : product (index - 1) 16 = .ok ((index - 1) * 16) :=
    product_eq_ok (by rw [wordLimit]; omega)
  have stop : sum ((index - 1) * 16) 16 = .ok ((index - 1) * 16 + 16) :=
    sum_eq_ok (by rw [wordLimit]; omega)
  refine .access (product_eq_ok (by rw [wordLimit]; omega)) ?_
  rw [Bytes.slice?]
  by_cases room : (index - 1) * 16 + 16 ≤ heap.data.size
  · rw [if_neg (by omega), if_pos room]
    refine .access before (.access start (.access stop ?_))
    refine .access (slice_eq_ok (by omega) room) ?_
    rw [copy_eq_ok (by rw [Array.size_extract]; omega)]
    exact .value _
  · rw [if_pos (by omega), if_neg room]
    exact .refused _

/-- A value that may be absent is loaded alike. -/
theorem settles_optionMapM {α β : Type} {f : α → Run β} {g : α → Except Fault β}
    (each : ∀ value, Settles (f value) (g value)) (found : Option α) :
    Settles (found.mapM f) (found.mapM g) := by
  cases found with
  | none => exact .value none
  | some value => exact (each value).map some

/-- The strict reader of the heaps gives the heaps of the model. -/
theorem settles_readHeaps (root : Root) (data : Bytes) :
    Settles (readHeaps root data) (Heaps.ofRoot root data) := by
  have stream (name : String) : streamData? root data name = .ok (root.streamData? data name) :=
    (settles_streamData? root data name).eq_ok rfl
  refine .access (stream "#Strings") ?_
  refine (settles_optionMapM (fun part => settles_startsEmpty part _ _) _).bind fun strings _ => ?_
  refine .access (stream "#Blob") ?_
  refine (settles_optionMapM (fun part => settles_startsEmpty part _ _) _).bind fun blobs _ => ?_
  refine .access (stream "#GUID") ?_
  refine (settles_optionMapM settles_guidHeap _).bind fun guids _ => ?_
  exact .access (stream "#US") (.value _)

/-- A text is found by both loaders alike. -/
theorem settles_string (heaps : Heaps) (index : UInt32) :
    Settles (string heaps index) (heaps.string index) := by
  refine .ite Iff.rfl (fun _ => .value "") fun _ => ?_
  cases heaps.strings with
  | some strings => exact settles_getString strings index.toNat
  | none => exact .refused _

/-- The heap of the blobs lies in memory. -/
def HasAddressableBlobs (heaps : Heaps) : Prop :=
  ∀ blobs ∈ heaps.blobs, IsAddressable blobs.data

/-- So is a blob. -/
theorem settles_blob {heaps : Heaps} (addressable : HasAddressableBlobs heaps) (index : UInt32) :
    Settles (blob heaps index) (heaps.blob index) := by
  refine .ite Iff.rfl (fun _ => .value #[]) fun _ => ?_
  cases found : heaps.blobs with
  | some blobs => exact settles_getBlob (addressable blobs found) index.toNat
  | none => exact .refused _

/-- An index that leads to no identifier is not a failure. -/
theorem guid?_eq_ok (heaps : Heaps) (index : UInt32) :
    guid? heaps index = .ok (heaps.guid? index) := by
  rw [guid?, Heaps.guid?]
  cases heaps.guids with
  | some guids => exact (settles_getGuid guids index.toNat_lt).attempt
  | none => rfl

end Strict

end ClrDecompiler
