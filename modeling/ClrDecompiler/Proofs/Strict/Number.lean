/-
This file reads numbers at places of their own, from the part of the data that starts there, and
shows that they are the numbers that a reader that asks before each access finds.
-/

import ClrDecompiler.Proofs.Bytes.Recognition
import ClrDecompiler.Proofs.Strict.Scan

namespace ClrDecompiler

namespace Bytes

variable {data : Bytes} {offset width : Nat}

/-- A part of the rest of the data is a part of the data. -/
theorem slice?_extract (inside : offset ≤ data.size) (position count : Nat) :
    slice? (data.extract offset data.size) position count =
      data.slice? (offset + position) count := by
  rw [slice?, slice?, Array.size_extract, Nat.min_self]
  by_cases fits : offset + position + count ≤ data.size
  · rw [if_pos fits, if_pos (by omega), Array.extract_extract]
    congr 1
    rw [Nat.add_assoc, Nat.min_eq_left (by omega)]
  · rw [if_neg fits, if_neg (by omega)]

theorem numberAt?_extract (inside : offset ≤ data.size) (position width : Nat) :
    numberAt? (data.extract offset data.size) position width =
      data.numberAt? (offset + position) width := by
  rw [numberAt?, numberAt?, slice?_extract inside]

theorem word32At?_extract (inside : offset ≤ data.size) (position : Nat) :
    word32At? (data.extract offset data.size) position = data.word32At? (offset + position) := by
  rw [word32At?, word32At?, numberAt?_extract inside]

/-- A number within the data is found. -/
theorem exists_number {α : Type} (f : Nat → α) (data : Bytes) (offset width : Nat)
    (inside : offset + width ≤ data.size) :
    ∃ value, orOutOfBounds ((data.numberAt? offset width).map f) = .ok value := by
  rw [numberAt?, slice?, if_pos inside]
  exact ⟨_, rfl⟩

/-- A number that is read fits its width. -/
theorem lt_of_numberAt? {value : Nat}
    (found : orOutOfBounds (data.numberAt? offset width) = .ok value) : value < 256 ^ width := by
  rw [numberAt?] at found
  cases cut : data.slice? offset width with
  | none =>
    rw [cut] at found
    cases found
  | some part =>
    rw [cut] at found
    cases found
    have bound := ofLittleEndian_lt part.toList
    rw [Array.length_toList, (slice?_eq_some cut).2] at bound
    exact bound

theorem orOutOfBounds_map {α β : Type} (f : α → β) (found : Option α) :
    orOutOfBounds (found.map f) = f <$> orOutOfBounds found := by
  cases found <;> rfl

/-- A byte is a number of one byte. -/
theorem numberAt?_one (data : Bytes) (offset : Nat) :
    data.byteAt? offset = (data.numberAt? offset 1).map UInt8.ofNat := by
  rw [byteAt?, numberAt?, slice?]
  by_cases inside : offset + 1 ≤ data.size
  · have single : data.extract offset (offset + 1) = #[data[offset]] := by
      apply Array.ext'
      have cut := List.drop_eq_getElem_cons (l := data.toList) inside
      rw [Array.toList_extract, List.extract, cut, Nat.add_sub_cancel_left]
      rfl
    rw [if_pos inside, single, Array.getElem?_eq_getElem inside]
    simp [ofLittleEndian]
  · rw [if_neg inside, Array.getElem?_eq_none (by omega)]
    rfl

end Bytes

/-- What bytes are read is what is cut from the data. -/
theorem Read.runAt_bytes (count : Nat) (data : Bytes) (position : Nat) :
    ((Read.bytes count).runAt data position).1 =
      Bytes.orOutOfBounds (data.slice? position count) := by
  simp only [Read.bytes, Read.runAt_bind, Read.runAt_get, Read.runAt_read]
  cases data.slice? position count <;> rfl

/-- A number that is read is the number at its place. -/
theorem Read.runAt_number (width : Nat) (data : Bytes) (position : Nat) :
    ((Read.number width).runAt data position).1 =
      Bytes.orOutOfBounds (data.numberAt? position width) := by
  have cut := Read.runAt_bytes width data position
  rw [Bytes.numberAt?, Bytes.orOutOfBounds_map, ← cut, Read.number, Read.runAt_bind]
  rcases (Read.bytes width).runAt data position with ⟨fault | found, after⟩ <;> rfl

theorem Read.runAt_map {α β : Type} (f : α → β) (step : Read α) (data : Bytes) (position : Nat) :
    ((f <$> step).runAt data position).1 = f <$> (step.runAt data position).1 := by
  rw [map_eq_pure_bind, Read.runAt_bind]
  rcases step.runAt data position with ⟨fault | value, after⟩ <;> rfl

namespace Strict

/-- Parts of data that can be addressed can be addressed. -/
theorem IsAddressable.extract {data : Bytes} (addressable : IsAddressable data) (start stop : Nat) :
    IsAddressable (data.extract start stop) := by
  have limit : data.size < 2 ^ 63 := addressable
  rw [IsAddressable, Array.size_extract]
  omega

theorem IsAddressable.of_slice? {data part : Bytes} (addressable : IsAddressable data)
    {offset size : Nat} (cut : Bytes.orOutOfBounds (data.slice? offset size) = .ok part) :
    IsAddressable part := by
  rw [Bytes.slice?] at cut
  split at cut
  · cases cut
    exact addressable.extract _ _
  · cases cut

/-- The number at the start of what follows a place. -/
def numberFrom (data : Bytes) (offset width : Nat) : Run Nat := do
  (Scan.number width).runFrom (← tail data offset) 0

def byteFrom (data : Bytes) (offset : Nat) : Run UInt8 :=
  UInt8.ofNat <$> numberFrom data offset 1

def word16From (data : Bytes) (offset : Nat) : Run UInt16 :=
  UInt16.ofNat <$> numberFrom data offset 2

def word32From (data : Bytes) (offset : Nat) : Run UInt32 :=
  UInt32.ofNat <$> numberFrom data offset 4

def word64From (data : Bytes) (offset : Nat) : Run UInt64 :=
  UInt64.ofNat <$> numberFrom data offset 8

section Numbers

variable {data : Bytes} (addressable : IsAddressable data)
include addressable

/-- A strict reader of numbers refuses only what the reader refuses. -/
theorem settles_number (position width : Nat) :
    Settles ((Scan.number width).runFrom data position)
      (Bytes.orOutOfBounds (data.numberAt? position width)) := by
  rw [← Read.runAt_number]
  exact (Follows.number width).settles addressable position

/-- A word of two bytes is read alike. -/
theorem settles_word16 (position : Nat) : Settles (Scan.word16.runFrom data position)
    (Bytes.orOutOfBounds (data.word16At? position)) := by
  rw [Bytes.word16At?, Bytes.orOutOfBounds_map, ← Read.runAt_number, ← Read.runAt_map]
  exact Follows.word16.settles addressable position

/-- So is one of four bytes. -/
theorem settles_word32 (position : Nat) : Settles (Scan.word32.runFrom data position)
    (Bytes.orOutOfBounds (data.word32At? position)) := by
  rw [Bytes.word32At?, Bytes.orOutOfBounds_map, ← Read.runAt_number, ← Read.runAt_map]
  exact Follows.word32.settles addressable position

variable {offset : Nat} (inside : offset ≤ data.size)
include inside

/-- The same holds for numbers that are read from an offset in the data. -/
theorem settles_numberFrom (width : Nat) : Settles (numberFrom data offset width)
    (Bytes.orOutOfBounds (data.numberAt? offset width)) := by
  have settles := settles_number (addressable.extract offset data.size) 0 width
  rw [Bytes.numberAt?_extract inside, Nat.add_zero] at settles
  exact .access (tail_eq_ok inside) settles

theorem settles_byteFrom :
    Settles (byteFrom data offset) (Bytes.orOutOfBounds (data.byteAt? offset)) := by
  rw [Bytes.numberAt?_one, Bytes.orOutOfBounds_map]
  exact (settles_numberFrom addressable inside 1).map _

theorem settles_word16From :
    Settles (word16From data offset) (Bytes.orOutOfBounds (data.word16At? offset)) := by
  rw [Bytes.word16At?, Bytes.orOutOfBounds_map]
  exact (settles_numberFrom addressable inside 2).map _

theorem settles_word32From :
    Settles (word32From data offset) (Bytes.orOutOfBounds (data.word32At? offset)) := by
  rw [Bytes.word32At?, Bytes.orOutOfBounds_map]
  exact (settles_numberFrom addressable inside 4).map _

theorem settles_word64From :
    Settles (word64From data offset) (Bytes.orOutOfBounds (data.word64At? offset)) := by
  rw [Bytes.word64At?, Bytes.orOutOfBounds_map]
  exact (settles_numberFrom addressable inside 8).map _

end Numbers

end Strict

end ClrDecompiler
