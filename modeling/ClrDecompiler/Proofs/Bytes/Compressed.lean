/-
This file describes the compressed forms of integers apart from their writer and shows that
the reader takes every form back. A form may be wider than its value needs.
-/

import ClrDecompiler.Proofs.Bytes.Reading
import ClrDecompiler.Proofs.Outcome

namespace ClrDecompiler.Compressed

def oneByte (value : Nat) : List UInt8 :=
  [UInt8.ofNat value]

def twoBytes (value : Nat) : List UInt8 :=
  [UInt8.ofNat (0x80 + value / 0x100), UInt8.ofNat (value % 0x100)]

def fourBytes (value : Nat) : List UInt8 :=
  [UInt8.ofNat (0xC0 + value / 0x1000000), UInt8.ofNat (value / 0x10000 % 0x100),
    UInt8.ofNat (value / 0x100 % 0x100), UInt8.ofNat (value % 0x100)]

/-- The forms of an unsigned number. The width in the high bits of the first byte leaves 7, 14
or 29 bits for the number. -/
inductive UnsignedForm : Nat → List UInt8 → Prop where
  | one {value : Nat} (fits : value < 0x80) : UnsignedForm value (oneByte value)
  | two {value : Nat} (fits : value < 0x4000) : UnsignedForm value (twoBytes value)
  | four {value : Nat} (fits : value < 0x20000000) : UnsignedForm value (fourBytes value)

/-- The forms of a signed number, whose sign is rotated into the lowest bit. -/
inductive SignedForm : Int → List UInt8 → Prop where
  | one {value : Int} (lower : -0x40 ≤ value) (upper : value < 0x40) :
    SignedForm value (oneByte (rotate 0x40 value))
  | two {value : Int} (lower : -0x2000 ≤ value) (upper : value < 0x2000) :
    SignedForm value (twoBytes (rotate 0x2000 value))
  | four {value : Int} (lower : -0x10000000 ≤ value) (upper : value < 0x10000000) :
    SignedForm value (fourBytes (rotate 0x10000000 value))

/-- Only numbers below 2^29 have a compressed form. -/
theorem UnsignedForm.lt {value : Nat} {encoding : List UInt8}
    (form : UnsignedForm value encoding) : value < 0x20000000 := by
  cases form <;> omega

theorem UnsignedForm.length_pos {value : Nat} {encoding : List UInt8}
    (form : UnsignedForm value encoding) : 0 < encoding.length := by
  cases form <;> simp [oneByte, twoBytes, fourBytes]

/-- Every number of up to 29 bits is written, and what is written is a form of it. -/
theorem encodeUnsigned_form {value : Nat} (fits : value < 0x20000000) :
    ∃ encoding, encodeUnsigned value = .ok encoding ∧ UnsignedForm value encoding := by
  by_cases one : value < 0x80
  · exact ⟨oneByte value, by rw [encodeUnsigned, if_pos one]; rfl, .one one⟩
  by_cases two : value < 0x4000
  · exact ⟨twoBytes value, by rw [encodeUnsigned, if_neg one, if_pos two]; rfl, .two two⟩
  · refine ⟨fourBytes value, ?_, .four fits⟩
    rw [encodeUnsigned, if_neg one, if_neg two, if_pos fits]
    rfl

/-- What is written is a form of the number. -/
theorem encodeUnsigned_eq_ok {value : Nat} {encoding : List UInt8}
    (written : encodeUnsigned value = .ok encoding) : UnsignedForm value encoding := by
  have fits : value < 0x20000000 := by
    apply Nat.lt_of_not_le
    intro large
    have one : ¬ value < 0x80 := by omega
    have two : ¬ value < 0x4000 := by omega
    have four : ¬ value < 0x20000000 := by omega
    simp [encodeUnsigned, one, two, four] at written
  obtain ⟨same, eq, form⟩ := encodeUnsigned_form fits
  rw [eq] at written
  cases written
  exact form

/-- What is appended to the data is a form of the number. -/
theorem appendUnsigned_eq_ok {data after : Bytes} {value : Nat}
    (written : appendUnsigned data value = .ok after) :
    ∃ encoding, UnsignedForm value encoding ∧ after.toList = data.toList ++ encoding := by
  rw [appendUnsigned] at written
  cases encoded : encodeUnsigned value with
  | error fault =>
    rw [encoded] at written
    cases written
  | ok encoding =>
    rw [encoded] at written
    cases written
    exact ⟨encoding, encodeUnsigned_eq_ok encoded, Array.toList_appendList⟩

/-- The forms of several numbers are appended one after the other. -/
theorem foldlM_appendUnsigned_eq_ok {data after : Bytes} {values : List Nat}
    (written : values.foldlM appendUnsigned data = .ok after) :
    ∃ encoding, Sequence UnsignedForm values encoding ∧ after.toList = data.toList ++ encoding := by
  induction values generalizing data with
  | nil =>
    cases written
    exact ⟨[], .nil, (List.append_nil _).symm⟩
  | cons value rest ih =>
    rw [List.foldlM_cons] at written
    obtain ⟨middle, first, later⟩ := Outcome.of_bind_eq_ok written
    obtain ⟨number, form, grown⟩ := appendUnsigned_eq_ok first
    obtain ⟨encoding, forms, whole⟩ := ih later
    exact ⟨number ++ encoding, .cons form forms, by rw [whole, grown, List.append_assoc]⟩

/-- A rotated value has one bit more than its magnitude. -/
theorem rotate_lt (half : Nat) (positive : 0 < half) (value : Int) :
    rotate half value < 2 * half := by
  have low := Int.emod_nonneg value (show (half : Int) ≠ 0 by omega)
  have high := Int.emod_lt_of_pos value (show (0 : Int) < half by omega)
  unfold rotate
  split <;> omega

/-- The sign of a number in range comes back. -/
theorem unrotate_rotate {half : Nat} {value : Int} (lower : -half ≤ value) (upper : value < half) :
    unrotate half (rotate half value) = value := by
  by_cases negative : value < 0
  · have wrapped : value % half = value + half := by
      rw [← Int.add_emod_right, Int.emod_eq_of_lt (by omega) (by omega)]
    simp only [rotate, unrotate, negative, if_true, wrapped]
    rw [if_pos (by omega)]
    omega
  · have kept : value % half = value := Int.emod_eq_of_lt (by omega) upper
    simp only [rotate, unrotate, negative, if_false, kept]
    rw [if_neg (by omega)]
    omega

end ClrDecompiler.Compressed

namespace ClrDecompiler.Read

open Compressed

/-- Bytes that follow a known lead are its lower digits to the base 256. -/
theorem yields_bigEndianFrom (lead : Nat) (digits rest : List UInt8) :
    (bigEndianFrom lead digits.length).Yields (digits ++ rest)
      (digits.foldl (fun value byte => value * 0x100 + byte.toNat) lead) rest := by
  induction digits generalizing lead with
  | nil => exact yields_pure lead rest
  | cons byte digits ih => exact (yields_word8 byte _).bind (ih _)

/-- Every form of a number is read as the number. -/
theorem inverts_compressedUnsigned : Read.compressedUnsigned.Inverts UnsignedForm := by
  intro value encoding form rest
  have number {part : Nat} (small : part < 256) : (UInt8.ofNat part).toNat = part :=
    UInt8.toNat_ofNat_of_lt' small
  have below80 {part : Nat} (small : part < 256) : UInt8.ofNat part < 0x80 ↔ part < 0x80 :=
    UInt8.ofNat_lt_iff small
  have belowC0 {part : Nat} (small : part < 256) : UInt8.ofNat part < 0xC0 ↔ part < 0xC0 :=
    UInt8.ofNat_lt_iff small
  have belowE0 {part : Nat} (small : part < 256) : UInt8.ofNat part < 0xE0 ↔ part < 0xE0 :=
    UInt8.ofNat_lt_iff small
  cases form with
  | one fits =>
    apply (yields_word8 _ _).bind
    rw [if_pos ((below80 (by omega)).mpr fits), number (by omega)]
    exact yields_pure value rest
  | two fits =>
    have small : 0x80 + value / 0x100 < 256 := by omega
    apply (yields_word8 _ _).bind
    rw [if_neg (by rw [below80 small]; omega), if_pos (by rw [belowC0 small]; omega), number small]
    have digits := yields_bigEndianFrom (0x80 + value / 0x100 - 0x80)
      [UInt8.ofNat (value % 0x100)] rest
    simp only [List.foldl_cons, List.foldl_nil, number (Nat.mod_lt _ (by decide : 0 < 256))]
      at digits
    rw [show (0x80 + value / 0x100 - 0x80) * 0x100 + value % 0x100 = value by omega] at digits
    exact digits
  | four fits =>
    have small : 0xC0 + value / 0x1000000 < 256 := by omega
    apply (yields_word8 _ _).bind
    rw [if_neg (by rw [below80 small]; omega), if_neg (by rw [belowC0 small]; omega),
      if_pos (by rw [belowE0 small]; omega), number small]
    have digits := yields_bigEndianFrom (0xC0 + value / 0x1000000 - 0xC0)
      [UInt8.ofNat (value / 0x10000 % 0x100), UInt8.ofNat (value / 0x100 % 0x100),
        UInt8.ofNat (value % 0x100)] rest
    simp only [List.foldl_cons, List.foldl_nil, number (Nat.mod_lt _ (by decide : 0 < 256))]
      at digits
    rw [show (((0xC0 + value / 0x1000000 - 0xC0) * 0x100 + value / 0x10000 % 0x100) * 0x100 +
      value / 0x100 % 0x100) * 0x100 + value % 0x100 = value by omega] at digits
    exact digits

/-- The sign extension of a compressed number starts at a place that follows from its width. -/
def halfOf : Nat → Nat
  | 1 => 0x40
  | 2 => 0x2000
  | _ => 0x10000000

theorem yields_compressedSigned_of_rotated {rotated : Nat} {encoding : List UInt8}
    (form : UnsignedForm rotated encoding) (rest : List UInt8) :
    Read.compressedSigned.Yields (encoding ++ rest)
      (unrotate (halfOf encoding.length) rotated) rest := by
  refine ⟨encoding, rfl, fun data before whole => ?_⟩
  have runs := (inverts_compressedUnsigned form rest).runAt_append whole
  simp only [Read.compressedSigned, runAt_bind, runAt_get, runs, runAt_pure,
    Nat.add_sub_cancel_left]
  rfl

/-- Every form of a signed number is read as the number. -/
theorem inverts_compressedSigned : Read.compressedSigned.Inverts SignedForm := by
  intro value encoding form rest
  cases form with
  | one lower upper =>
    have reads := yields_compressedSigned_of_rotated
      (.one (rotate_lt 0x40 (by decide) value)) rest
    rw [show halfOf (oneByte _).length = 0x40 from rfl, unrotate_rotate lower upper] at reads
    exact reads
  | two lower upper =>
    have reads := yields_compressedSigned_of_rotated
      (.two (rotate_lt 0x2000 (by decide) value)) rest
    rw [show halfOf (twoBytes _).length = 0x2000 from rfl, unrotate_rotate lower upper] at reads
    exact reads
  | four lower upper =>
    have reads := yields_compressedSigned_of_rotated
      (.four (rotate_lt 0x10000000 (by decide) value)) rest
    rw [show halfOf (fourBytes _).length = 0x10000000 from rfl,
      unrotate_rotate lower upper] at reads
    exact reads

end ClrDecompiler.Read
