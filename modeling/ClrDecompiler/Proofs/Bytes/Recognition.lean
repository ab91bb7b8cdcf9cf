/-
This file describes a reading step by the byte strings that it accepts: the step succeeds at a
place exactly if a form of its value stands there, and it stops right after the form.
-/

import ClrDecompiler.Proofs.Bytes.Reading

namespace ClrDecompiler.Bytes

theorem ofLittleEndian_lt (bytes : List UInt8) : ofLittleEndian bytes < 256 ^ bytes.length := by
  induction bytes with
  | nil => exact Nat.one_pos
  | cons byte rest ih =>
    have low := byte.toNat_lt
    rw [ofLittleEndian, List.length_cons, Nat.pow_succ]
    omega

/-- Bytes are the digits of the number that they hold. -/
theorem littleEndian_ofLittleEndian (bytes : List UInt8) :
    littleEndian bytes.length (ofLittleEndian bytes) = bytes := by
  induction bytes with
  | nil => rfl
  | cons byte rest ih => rw [ofLittleEndian, List.length_cons, littleEndian_cons, ih]

/-- The bytes of a number in two's complement. -/
def twosComplement (width : Nat) (value : Int) : List UInt8 :=
  littleEndian width (value % (256 ^ width : Nat)).toNat

@[simp] theorem twosComplement_length (width : Nat) (value : Int) :
    (twosComplement width value).length = width :=
  littleEndian_length _ _

theorem flatMap_length {α : Type} {encode : α → List UInt8} {width : Nat}
    (sized : ∀ value, (encode value).length = width) (values : List α) :
    (values.flatMap encode).length = values.length * width := by
  induction values with
  | nil => exact (Nat.zero_mul _).symm
  | cons value rest ih =>
    rw [List.flatMap_cons, List.length_append, sized, ih, List.length_cons, Nat.succ_mul,
      Nat.add_comm]

/-- Half of the numbers of a width are negative. -/
def FitsSigned (width : Nat) (value : Int) : Prop :=
  -(256 ^ width : Nat) ≤ 2 * value ∧ 2 * value < (256 ^ width : Nat)

instance (width : Nat) (value : Int) : Decidable (FitsSigned width value) :=
  inferInstanceAs (Decidable (_ ∧ _))

/-- A number stands for the signed one that it is the complement of. -/
theorem bmod_eq_iff_of_lt {width number : Nat} (positive : 0 < width)
    (fits : number < 256 ^ width) (value : Int) :
    Int.bmod number (256 ^ width) = value ↔
      FitsSigned width value ∧ (value % (256 ^ width : Nat)).toNat = number := by
  have even : 256 ^ width = 2 * (128 * 256 ^ (width - 1)) := by
    obtain ⟨width, rfl⟩ := Nat.exists_eq_succ_of_ne_zero (Nat.ne_of_gt positive)
    rw [Nat.pow_succ, Nat.succ_sub_one]
    omega
  have some : 0 < 256 ^ width := Nat.pow_pos (by decide)
  have low := Int.emod_nonneg value (Int.natCast_ne_zero.mpr (Nat.ne_of_gt some))
  rw [FitsSigned]
  generalize 256 ^ width = modulus at *
  constructor
  · rintro rfl
    have lower := Int.le_bmod (x := number) some
    have upper := Int.bmod_lt (x := number) some
    have rest : Int.bmod number modulus % modulus = number := by
      rw [Int.bmod_emod, Int.emod_eq_of_lt (Int.natCast_nonneg _) (by omega)]
    rw [rest]
    omega
  · rintro ⟨⟨lower, upper⟩, rfl⟩
    rw [Int.toNat_of_nonneg low, Int.emod_bmod]
    exact Int.bmod_eq_of_le (by omega) (by omega)

end ClrDecompiler.Bytes

namespace ClrDecompiler.Read

open Bytes

variable {α β : Type}

/-- The step succeeds at a place exactly if a form of the value stands there, and it stops
right after the form. -/
def Recognizes (step : Read α) (form : Nat → α → List UInt8 → Prop) : Prop :=
  ∀ ⦃data : Bytes⦄ ⦃before input : List UInt8⦄, data.toList = before ++ input →
    ∀ (value : α) (after : Nat), step.runAt data before.length = (.ok value, after) ↔
      ∃ encoding rest, input = encoding ++ rest ∧ form before.length value encoding ∧
        after = before.length + encoding.length

/-- The form of a value that one step finds out and the next one uses. -/
def Then (form : Nat → α → List UInt8 → Prop) (later : α → Nat → β → List UInt8 → Prop)
    (place : Nat) (result : β) (encoding : List UInt8) : Prop :=
  ∃ value head tail, encoding = head ++ tail ∧ form place value head ∧
    later value (place + head.length) result tail

theorem Recognizes.congr {step : Read α} {form other : Nat → α → List UInt8 → Prop}
    (recognizes : step.Recognizes form)
    (same : ∀ place value encoding, form place value encoding ↔ other place value encoding) :
    step.Recognizes other := by
  intro data before input whole value after
  simp only [recognizes whole, same]

theorem recognizes_pure (value : α) :
    (pure value : Read α).Recognizes fun _ found encoding => value = found ∧ encoding = [] := by
  intro data before input whole found after
  rw [runAt_pure]
  constructor
  · intro run
    cases run
    exact ⟨[], input, rfl, ⟨rfl, rfl⟩, rfl⟩
  · rintro ⟨_, rest, rfl, ⟨rfl, rfl⟩, rfl⟩
    rfl

theorem recognizes_throw (fault : Fault) :
    (throw fault : Read α).Recognizes fun _ _ _ => False := by
  intro data before input whole found after
  constructor
  · intro run
    cases run
  · rintro ⟨_, _, _, refused, _⟩
    exact refused.elim

theorem recognizes_liftM (outcome : Except Fault α) :
    (liftM outcome : Read α).Recognizes fun _ found encoding =>
      outcome = .ok found ∧ encoding = [] := by
  cases outcome with
  | error fault =>
    refine (recognizes_throw fault).congr fun _ _ _ => ?_
    simp
  | ok value =>
    refine (recognizes_pure value).congr fun _ _ _ => ?_
    simp

/-- The second step goes on where the first one stopped. -/
theorem Recognizes.bind {step : Read α} {next : α → Read β} {form : Nat → α → List UInt8 → Prop}
    (first : step.Recognizes form) (later : α → Nat → β → List UInt8 → Prop)
    (second : ∀ value, (next value).Recognizes (later value)) :
    (step >>= next).Recognizes (Then form later) := by
  intro data before input whole result after
  rw [runAt_bind]
  constructor
  · intro run
    rcases reached : step.runAt data before.length with ⟨fault | value, middle⟩
    · rw [reached] at run
      cases run
    rw [reached] at run
    obtain ⟨head, input, rfl, shape, rfl⟩ := (first whole value middle).mp reached
    rw [← List.append_assoc] at whole
    rw [← List.length_append] at run
    obtain ⟨tail, rest, rfl, further, rfl⟩ := (second value whole result after).mp run
    rw [List.length_append] at further
    refine ⟨head ++ tail, rest, (List.append_assoc _ _ _).symm, ?_, ?_⟩
    · exact ⟨value, head, tail, rfl, shape, further⟩
    · rw [List.length_append, List.length_append, Nat.add_assoc]
  · rintro ⟨_, rest, rfl, ⟨value, head, tail, rfl, shape, further⟩, rfl⟩
    rw [List.append_assoc] at whole
    have reached := (first whole value _).mpr ⟨head, _, rfl, shape, rfl⟩
    rw [← List.append_assoc] at whole
    rw [← List.length_append] at further
    have run := (second value whole result _).mpr ⟨tail, rest, rfl, further, rfl⟩
    rw [List.length_append] at run
    rw [reached, List.length_append, ← Nat.add_assoc]
    exact run

/-- The place itself takes no bytes. -/
theorem recognizes_get_bind {next : Nat → Read β} {form : Nat → Nat → β → List UInt8 → Prop}
    (later : ∀ place, (next place).Recognizes (form place)) :
    ((get : Read Nat) >>= next).Recognizes fun place => form place place := by
  intro data before input whole value after
  rw [runAt_bind, runAt_get]
  exact later before.length whole value after

/-- A reader that changes its value recognizes the same encodings. -/
theorem Recognizes.map {step : Read α} {form : Nat → α → List UInt8 → Prop} (f : α → β)
    (recognizes : step.Recognizes form) :
    (f <$> step).Recognizes fun place result encoding =>
      ∃ value, form place value encoding ∧ f value = result := by
  rw [map_eq_pure_bind]
  refine (recognizes.bind _ fun value => recognizes_pure (f value)).congr
    fun place result encoding => ?_
  constructor
  · rintro ⟨value, head, _, rfl, shape, rfl, rfl⟩
    rw [List.append_nil]
    exact ⟨value, shape, rfl⟩
  · rintro ⟨value, shape, rfl⟩
    exact ⟨value, encoding, [], (List.append_nil _).symm, shape, rfl, rfl⟩

/-- A step need not look for room that its forms take anyway. -/
theorem Recognizes.after_room {step : Read α} {form : Nat → α → List UInt8 → Prop}
    (recognizes : step.Recognizes form) {room : Nat}
    (taken : ∀ place value encoding, form place value encoding → room ≤ encoding.length)
    (fault : Fault) :
    (do
      if (← Read.size) < (← get) + room then throw fault
      step : Read α).Recognizes form := by
  intro data before input whole value after
  have size : data.size = before.length + input.length := by
    rw [← Array.length_toList, whole, List.length_append]
  simp only [Read.size, runAt_bind, runAt_read, runAt_get, runAt_pure]
  by_cases tight : data.size < before.length + room
  · rw [if_pos tight]
    constructor
    · intro run
      cases run
    · rintro ⟨encoding, rest, rfl, shape, -⟩
      have large := taken _ _ _ shape
      rw [List.length_append] at size
      omega
  · rw [if_neg tight]
    exact recognizes whole value after

theorem recognizes_bytes (count : Nat) : (Read.bytes count).Recognizes
    fun _ found encoding => encoding.length = count ∧ encoding.toArray = found := by
  intro data before input whole found after
  have size : data.size = before.length + input.length := by
    rw [← Array.length_toList, whole, List.length_append]
  constructor
  · intro run
    simp only [Read.bytes, runAt_bind, runAt_get, runAt_read] at run
    by_cases inside : count ≤ input.length
    · have split : data.toList = before ++ (input.take count ++ input.drop count) := by
        rw [List.take_append_drop, whole]
      have cut := slice?_middle split
      rw [List.length_take_of_le inside] at cut
      simp only [cut, runAt_bind, runAt_set, runAt_pure] at run
      cases run
      refine ⟨input.take count, input.drop count, (List.take_append_drop _ _).symm, ⟨?_, rfl⟩, ?_⟩
      · exact List.length_take_of_le inside
      · rw [List.length_take_of_le inside]
    · have outside : data.slice? before.length count = none := by
        rw [slice?, if_neg (by omega)]
      simp only [outside] at run
      cases run
  · rintro ⟨encoding, rest, rfl, ⟨rfl, rfl⟩, rfl⟩
    exact (yields_bytes encoding rest).runAt_append whole

/-- What is read as a number is its little-endian form. -/
theorem recognizes_number (width : Nat) : (Read.number width).Recognizes
    fun _ found encoding => found < 256 ^ width ∧ encoding = littleEndian width found := by
  refine ((recognizes_bytes width).map fun bytes => ofLittleEndian bytes.toList).congr
    fun place found encoding => ?_
  constructor
  · rintro ⟨bytes, ⟨rfl, rfl⟩, rfl⟩
    exact ⟨ofLittleEndian_lt _, (littleEndian_ofLittleEndian _).symm⟩
  · rintro ⟨fits, rfl⟩
    exact ⟨_, ⟨littleEndian_length _ _, rfl⟩, ofLittleEndian_littleEndian_of_lt fits⟩

/-- What is read as a signed number is its complement. -/
theorem recognizes_signed {width : Nat} (positive : 0 < width) : (Read.signed width).Recognizes
    fun _ found encoding => FitsSigned width found ∧ encoding = twosComplement width found := by
  have modulus : 1 <<< (8 * width) = 256 ^ width := by
    rw [Nat.one_shiftLeft, Nat.pow_mul]
  refine ((recognizes_number width).map fun number : Nat =>
    Int.bmod number (1 <<< (8 * width))).congr fun place found encoding => ?_
  rw [modulus]
  constructor
  · rintro ⟨number, ⟨fits, rfl⟩, value⟩
    obtain ⟨signed, same⟩ := (bmod_eq_iff_of_lt positive fits found).mp value
    exact ⟨signed, by rw [twosComplement, same]⟩
  · rintro ⟨signed, rfl⟩
    have fits : (found % (256 ^ width : Nat)).toNat < 256 ^ width := by
      have some : 0 < 256 ^ width := Nat.pow_pos (by decide)
      have bound := Int.emod_lt_of_pos found (Int.natCast_pos.mpr some)
      omega
    exact ⟨_, ⟨fits, rfl⟩, (bmod_eq_iff_of_lt positive fits found).mpr ⟨signed, rfl⟩⟩

theorem recognizes_word8 : Read.word8.Recognizes
    fun _ found encoding => encoding = [found] := by
  refine ((recognizes_number 1).map UInt8.ofNat).congr fun place found encoding => ?_
  constructor
  · rintro ⟨number, ⟨fits, rfl⟩, rfl⟩
    have small : number < 256 := fits
    rw [littleEndian, Nat.mod_eq_of_lt small]
    rfl
  · rintro rfl
    have small := found.toNat_lt
    refine ⟨found.toNat, ⟨small, ?_⟩, UInt8.ofNat_toNat⟩
    rw [littleEndian, Nat.mod_eq_of_lt small, UInt8.ofNat_toNat]
    rfl

theorem recognizes_word32 : Read.word32.Recognizes
    fun _ found encoding => encoding = littleEndian 4 found.toNat := by
  refine ((recognizes_number 4).map UInt32.ofNat).congr fun place found encoding => ?_
  constructor
  · rintro ⟨number, ⟨fits, rfl⟩, rfl⟩
    rw [UInt32.toNat_ofNat_of_lt' fits]
  · rintro rfl
    exact ⟨_, ⟨found.toNat_lt, rfl⟩, UInt32.ofNat_toNat⟩

theorem recognizes_word64 : Read.word64.Recognizes
    fun _ found encoding => encoding = littleEndian 8 found.toNat := by
  refine ((recognizes_number 8).map UInt64.ofNat).congr fun place found encoding => ?_
  constructor
  · rintro ⟨number, ⟨fits, rfl⟩, rfl⟩
    rw [UInt64.toNat_ofNat_of_lt' fits]
  · rintro rfl
    exact ⟨_, ⟨found.toNat_lt, rfl⟩, UInt64.ofNat_toNat⟩

end ClrDecompiler.Read
