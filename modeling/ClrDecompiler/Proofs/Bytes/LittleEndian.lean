/-
This file relates byte strings to lists of bytes and little-endian numbers to the bytes that
hold them.
-/

import ClrDecompiler.Bytes.Compressed
import Mathlib.Algebra.Group.Nat.Defs

namespace ClrDecompiler.Bytes

@[simp] theorem littleEndian_length (width value : Nat) :
    (littleEndian width value).length = width := by
  induction width generalizing value with
  | zero => rfl
  | succ width ih => simp [littleEndian, ih]

theorem littleEndian_cons (width : Nat) (byte : UInt8) (value : Nat) :
    littleEndian (width + 1) (byte.toNat + 256 * value) = byte :: littleEndian width value := by
  have low := byte.toNat_lt
  have digit : (byte.toNat + 256 * value) % 256 = byte.toNat := by omega
  have others : (byte.toNat + 256 * value) / 256 = value := by omega
  rw [littleEndian, digit, others, UInt8.ofNat_toNat]

/-- The bytes of a number give back what of it fits into them. -/
theorem ofLittleEndian_littleEndian (width value : Nat) :
    ofLittleEndian (littleEndian width value) = value % 256 ^ width := by
  induction width generalizing value with
  | zero => simp [littleEndian, ofLittleEndian, Nat.mod_one]
  | succ width ih =>
    have low : (UInt8.ofNat (value % 256)).toNat = value % 256 :=
      UInt8.toNat_ofNat_of_lt' (Nat.mod_lt _ (by decide))
    rw [littleEndian, ofLittleEndian, low, ih, Nat.pow_succ, Nat.mul_comm (256 ^ width),
      Nat.mod_mul]

/-- A number that fits its width is read back. -/
theorem ofLittleEndian_littleEndian_of_lt {width value : Nat} (fits : value < 256 ^ width) :
    ofLittleEndian (littleEndian width value) = value := by
  rw [ofLittleEndian_littleEndian, Nat.mod_eq_of_lt fits]

/-- The middle of the data is cut out by its place and its length. -/
theorem extract_middle {data : Bytes} {before middle after : List UInt8}
    (whole : data.toList = before ++ (middle ++ after)) :
    data.extract before.length (before.length + middle.length) = middle.toArray := by
  apply Array.toList_inj.mp
  rw [Array.toList_extract, whole]
  simp [List.extract]

theorem slice?_eq_some {data part : Bytes} {offset count : Nat}
    (cut : data.slice? offset count = some part) :
    offset + count ≤ data.size ∧ part.size = count := by
  rw [slice?] at cut
  split at cut
  · next inside =>
    cases cut
    refine ⟨inside, ?_⟩
    rw [Array.size_extract]
    omega
  · cases cut

/-- Bytes in the middle of a byte string are found at their offset. -/
theorem slice?_middle {data : Bytes} {before middle after : List UInt8}
    (whole : data.toList = before ++ (middle ++ after)) :
    data.slice? before.length middle.length = some middle.toArray := by
  have inside : before.length + middle.length ≤ data.size := by
    rw [← Array.length_toList, whole, List.length_append, List.length_append]
    omega
  rw [slice?, if_pos inside, extract_middle whole]

theorem slice?_part {data part : Bytes} {before after : List UInt8}
    (whole : data.toList = before ++ (part.toList ++ after)) :
    data.slice? before.length part.size = some part :=
  slice?_middle whole

theorem byteAt?_middle {data : Bytes} (before : List UInt8) {after : List UInt8} {byte : UInt8}
    (whole : data.toList = before ++ byte :: after) : data[before.length]? = some byte := by
  rw [← Array.getElem?_toList, whole]
  simp

/-- A number is found where its bytes stand. -/
theorem numberAt?_middle {data : Bytes} {before after : List UInt8} {width value : Nat}
    (fits : value < 256 ^ width)
    (whole : data.toList = before ++ (littleEndian width value ++ after)) :
    data.numberAt? before.length width = some value := by
  have cut := slice?_middle whole
  rw [littleEndian_length] at cut
  rw [numberAt?, cut, Option.map_some, ofLittleEndian_littleEndian_of_lt fits]

theorem word16At?_middle {data : Bytes} {before after : List UInt8} {value : Nat}
    (fits : value < 256 ^ 2) (whole : data.toList = before ++ (littleEndian 2 value ++ after)) :
    data.word16At? before.length = some (UInt16.ofNat value) := by
  rw [word16At?, numberAt?_middle fits whole, Option.map_some]

theorem word32At?_middle {data : Bytes} {before after : List UInt8} {value : Nat}
    (fits : value < 256 ^ 4) (whole : data.toList = before ++ (littleEndian 4 value ++ after)) :
    data.word32At? before.length = some (UInt32.ofNat value) := by
  rw [word32At?, numberAt?_middle fits whole, Option.map_some]

theorem word64At?_middle {data : Bytes} {before after : List UInt8} {value : UInt64}
    (whole : data.toList = before ++ (littleEndian 8 value.toNat ++ after)) :
    data.word64At? before.length = some value := by
  rw [word64At?, numberAt?_middle value.toNat_lt whole, Option.map_some, UInt64.ofNat_toNat]

@[simp] theorem toList_appendNumber (data : Bytes) (width value : Nat) :
    (data.appendNumber width value).toList = data.toList ++ littleEndian width value := by
  simp [appendNumber]

/-- Bytes with zeros up to a multiple of four. -/
def padded (bytes : List UInt8) : List UInt8 :=
  bytes ++ List.replicate (alignUp 4 bytes.length - bytes.length) 0

theorem padded_length (bytes : List UInt8) : (padded bytes).length = alignUp 4 bytes.length := by
  rw [padded, List.length_append, List.length_replicate, alignUp]
  omega

/-- Data of an aligned size need no padding. -/
theorem padded_of_aligned {bytes : List UInt8} (aligned : bytes.length % 4 = 0) :
    padded bytes = bytes := by
  have none : alignUp 4 bytes.length - bytes.length = 0 := by
    rw [alignUp]
    omega
  rw [padded, none, List.replicate_zero, List.append_nil]

theorem alignUp_four_mod (size : Nat) : alignUp 4 size % 4 = 0 :=
  Nat.mul_mod_left _ 4

/-- What is appended at a multiple of four is padded by itself. -/
theorem toList_padTo_four {data : Bytes} (before bytes : List UInt8)
    (aligned : before.length % 4 = 0) (whole : data.toList = before ++ bytes) :
    (data.padTo 4).toList = before ++ padded bytes := by
  have size : data.size = before.length + bytes.length := by
    rw [← Array.length_toList, whole, List.length_append]
  have zeros : alignUp 4 data.size - data.size = alignUp 4 bytes.length - bytes.length := by
    rw [size, alignUp, alignUp]
    omega
  simp [padTo, padded, whole, zeros]

/-- The padding consists of zeros. -/
theorem toList_padTo (data : Bytes) (alignment : Nat) :
    (data.padTo alignment).toList =
      data.toList ++ List.replicate (alignUp alignment data.size - data.size) 0 := by
  simp [padTo]

end ClrDecompiler.Bytes
