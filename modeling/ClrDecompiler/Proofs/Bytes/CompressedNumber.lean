/-
This file shows that the compressed forms of integers are all that their readers accept, and
describes blobs that are rows of such numbers.
-/

import ClrDecompiler.Proofs.Bytes.Locality
import ClrDecompiler.Proofs.Bytes.Recognition

namespace ClrDecompiler

section

variable {α : Type} {form : α → List UInt8 → Prop}

@[simp] theorem sequence_nil_iff {encoding : List UInt8} :
    Sequence form [] encoding ↔ encoding = [] := by
  constructor
  · intro sequence
    cases sequence
    rfl
  · rintro rfl
    exact .nil

theorem sequence_cons_iff {first : α} {rest : List α} {encoding : List UInt8} :
    Sequence form (first :: rest) encoding ↔
      ∃ head tail, encoding = head ++ tail ∧ form first head ∧ Sequence form rest tail := by
  constructor
  · exact Sequence.of_cons
  · rintro ⟨head, tail, rfl, shape, others⟩
    exact .cons shape others

/-- The encoding of two lists is that of the first one and that of the second one. -/
theorem sequence_append_iff {values others : List α} {encoding : List UInt8} :
    Sequence form (values ++ others) encoding ↔
      ∃ head tail, encoding = head ++ tail ∧ Sequence form values head ∧
        Sequence form others tail := by
  induction values generalizing encoding with
  | nil => simp
  | cons value rest ih =>
    simp only [List.cons_append, sequence_cons_iff, ih]
    constructor
    · rintro ⟨first, _, rfl, shape, middle, tail, rfl, later, last⟩
      refine ⟨first ++ middle, tail, ?_, ⟨first, middle, rfl, shape, later⟩, last⟩
      rw [List.append_assoc]
    · rintro ⟨_, tail, rfl, ⟨first, middle, rfl, shape, later⟩, last⟩
      exact ⟨first, middle ++ tail, List.append_assoc _ _ _, shape, middle, tail, rfl, later, last⟩

/-- A list has an encoding exactly if each of its entries has one. -/
theorem exists_sequence_iff {values : List α} :
    (∃ encoding, Sequence form values encoding) ↔
      ∀ value ∈ values, ∃ encoding, form value encoding := by
  induction values with
  | nil => simp
  | cons value rest ih =>
    simp only [sequence_cons_iff, List.forall_mem_cons, ← ih]
    constructor
    · rintro ⟨_, head, tail, rfl, shape, others⟩
      exact ⟨⟨head, shape⟩, tail, others⟩
    · rintro ⟨⟨head, shape⟩, tail, others⟩
      exact ⟨_, head, tail, rfl, shape, others⟩

end

namespace Compressed

/-- A rotated number in range comes back. -/
theorem rotate_unrotate {half rotated : Nat} (small : rotated < 2 * half) :
    rotate half (unrotate half rotated) = rotated := by
  by_cases odd : rotated % 2 = 1
  · have wrapped : ((rotated / 2 : Nat) - half : Int) % half = (rotated / 2 : Nat) := by
      rw [Int.sub_emod_right, Int.emod_eq_of_lt (by omega) (by omega)]
    rw [rotate, unrotate, if_pos odd, wrapped, if_pos (by omega)]
    omega
  · have kept : ((rotated / 2 : Nat) : Int) % half = (rotated / 2 : Nat) :=
      Int.emod_eq_of_lt (by omega) (by omega)
    rw [rotate, unrotate, if_neg odd, kept, if_neg (by omega)]
    omega

theorem le_unrotate (half rotated : Nat) : -(half : Int) ≤ unrotate half rotated := by
  unfold unrotate
  split <;> omega

theorem unrotate_lt {half rotated : Nat} (small : rotated < 2 * half) :
    unrotate half rotated < half := by
  unfold unrotate
  split <;> omega

/-- A number of a blob, in one of the two kinds of compressed forms. -/
inductive Number where
  | unsigned (value : Nat)
  | signed (value : Int)
  deriving DecidableEq, Repr

namespace Number

def Form : Number → List UInt8 → Prop
  | .unsigned value => UnsignedForm value
  | .signed value => SignedForm value

/-- A compressed form has room for 29 bits. -/
def Fits : Number → Prop
  | .unsigned value => value < 0x20000000
  | .signed value => -0x10000000 ≤ value ∧ value < 0x10000000

instance : DecidablePred Fits
  | .unsigned _ => inferInstanceAs (Decidable (_ < _))
  | .signed _ => inferInstanceAs (Decidable (_ ∧ _))

/-- Exactly the numbers that fit have forms. -/
theorem exists_form_iff {number : Number} : (∃ encoding, number.Form encoding) ↔ number.Fits := by
  cases number with
  | unsigned value =>
    constructor
    · rintro ⟨encoding, form⟩
      exact form.lt
    · intro fits
      exact ⟨_, .four fits⟩
  | signed value =>
    constructor
    · rintro ⟨encoding, form⟩
      cases form <;> exact ⟨by omega, by omega⟩
    · rintro ⟨lower, upper⟩
      exact ⟨_, .four lower upper⟩

theorem Form.length_pos {number : Number} {encoding : List UInt8} (form : number.Form encoding) :
    0 < encoding.length := by
  cases number with
  | unsigned value => exact UnsignedForm.length_pos form
  | signed value => cases form <;> exact Nat.succ_pos _

end Number

end Compressed

namespace Read

open Compressed

variable {α : Type} {step : Read α} {form : α → List UInt8 → Prop}

/-- A reader that recognizes a form reads every encoding of that form. -/
theorem Recognizes.inverts (recognizes : step.Recognizes fun _ => form) : step.Inverts form := by
  intro value encoding shape rest
  refine ⟨encoding, rfl, fun data before whole => ?_⟩
  exact (recognizes whole value _).mpr ⟨encoding, rest, rfl, shape, rfl⟩

/-- A step that reads every form recognizes the forms if it accepts nothing else. -/
theorem Inverts.recognizes (inverts : step.Inverts form)
    (sound : ∀ ⦃data : Bytes⦄ ⦃before input : List UInt8⦄, data.toList = before ++ input →
      ∀ value after, step.runAt data before.length = (.ok value, after) →
        ∃ encoding rest, input = encoding ++ rest ∧ form value encoding) :
    step.Recognizes fun _ => form := by
  intro data before input whole value after
  constructor
  · intro run
    obtain ⟨encoding, rest, rfl, shape⟩ := sound whole value after run
    rw [(inverts shape rest).runAt_append whole] at run
    cases run
    exact ⟨encoding, rest, rfl, shape, rfl⟩
  · rintro ⟨encoding, rest, rfl, shape, rfl⟩
    exact (inverts shape rest).runAt_append whole

theorem Recognizes.guard {refuses : Prop} [Decidable refuses] {fault : Fault}
    {rest : PUnit → Read α} {next : Read α} {form : Nat → α → List UInt8 → Prop}
    (recognizes : next.Recognizes form) :
    (if refuses then throw fault >>= rest else next : Read α).Recognizes
      fun place value encoding => ¬ refuses ∧ form place value encoding := by
  intro data before input whole value after
  by_cases refused : refuses
  · rw [if_pos refused]
    constructor
    · intro run
      cases run
    · rintro ⟨_, _, _, ⟨accepted, _⟩, _⟩
      exact absurd refused accepted
  · rw [if_neg refused]
    simp only [refused, not_false_eq_true, true_and]
    exact recognizes whole value after

theorem recognizes_bigEndianFrom (lead count : Nat) :
    (bigEndianFrom lead count).Recognizes fun _ found encoding => encoding.length = count ∧
      encoding.foldl (fun value byte => value * 0x100 + byte.toNat) lead = found := by
  induction count generalizing lead with
  | zero =>
    refine (recognizes_pure lead).congr fun place found encoding => ?_
    constructor
    · rintro ⟨rfl, rfl⟩
      exact ⟨rfl, rfl⟩
    · rintro ⟨empty, rfl⟩
      cases List.length_eq_zero_iff.mp empty
      exact ⟨rfl, rfl⟩
  | succ count ih =>
    refine (recognizes_word8.bind _ fun byte => ih _).congr fun place found encoding => ?_
    constructor
    · rintro ⟨byte, _, tail, rfl, rfl, rfl, rfl⟩
      exact ⟨rfl, rfl⟩
    · rintro ⟨size, rfl⟩
      obtain ⟨byte, tail, rfl⟩ := List.exists_of_length_succ _ size
      exact ⟨byte, [byte], tail, rfl, rfl, Nat.succ.inj size, rfl⟩

/-- What the reader takes for a number is a form of it. -/
theorem recognizes_compressedUnsigned :
    Read.compressedUnsigned.Recognizes fun _ => UnsignedForm := by
  refine inverts_compressedUnsigned.recognizes fun data before input whole value after run => ?_
  obtain ⟨lead, middle, first, later⟩ := of_runAt_bind run
  obtain ⟨_, input, rfl, rfl, rfl⟩ := (recognizes_word8 whole _ _).mp first
  have low := lead.toNat_lt
  have behind : data.toList = (before ++ [lead]) ++ input := by rw [whole, List.append_assoc]
  rw [← List.length_append] at later
  have byte {number : Nat} {digit : UInt8} (same : number = digit.toNat) :
      UInt8.ofNat number = digit := by rw [same, UInt8.ofNat_toNat]
  split at later
  case isTrue one =>
    cases later
    refine ⟨[lead], input, rfl, ?_⟩
    have form : UnsignedForm lead.toNat (oneByte lead.toNat) := .one one
    rw [oneByte, UInt8.ofNat_toNat] at form
    exact form
  case isFalse atLeast80 =>
  have above : 0x80 ≤ lead.toNat := Nat.le_of_not_lt atLeast80
  split at later
  case isTrue two =>
    have below : lead.toNat < 0xC0 := two
    obtain ⟨digits, rest, rfl, ⟨size, found⟩, -⟩ :=
      (recognizes_bigEndianFrom _ 1 behind _ _).mp later
    obtain ⟨second, rfl⟩ := List.length_eq_one_iff.mp size
    have secondLow := second.toNat_lt
    refine ⟨[lead, second], rest, rfl, ?_⟩
    simp only [List.foldl_cons, List.foldl_nil] at found
    have form : UnsignedForm value (twoBytes value) := .two (by omega)
    rw [twoBytes, byte (show _ = lead.toNat by omega), byte (show _ = second.toNat by omega)]
      at form
    exact form
  case isFalse atLeastC0 =>
  have aboveC0 : 0xC0 ≤ lead.toNat := Nat.le_of_not_lt atLeastC0
  split at later
  case isTrue four =>
    have below : lead.toNat < 0xE0 := four
    obtain ⟨digits, rest, rfl, ⟨size, found⟩, -⟩ :=
      (recognizes_bigEndianFrom _ 3 behind _ _).mp later
    obtain ⟨second, third, fourth, rfl⟩ := List.length_eq_three.mp size
    have secondLow := second.toNat_lt
    have thirdLow := third.toNat_lt
    have fourthLow := fourth.toNat_lt
    refine ⟨[lead, second, third, fourth], rest, rfl, ?_⟩
    simp only [List.foldl_cons, List.foldl_nil] at found
    have form : UnsignedForm value (fourBytes value) := .four (by omega)
    rw [fourBytes, byte (show _ = lead.toNat by omega), byte (show _ = second.toNat by omega),
      byte (show _ = third.toNat by omega), byte (show _ = fourth.toNat by omega)] at form
    exact form
  case isFalse => cases later

theorem signedForm_of_unsignedForm {rotated : Nat} {encoding : List UInt8}
    (form : UnsignedForm rotated encoding) :
    SignedForm (unrotate (halfOf encoding.length) rotated) encoding := by
  cases form with
  | one fits =>
    have signed := SignedForm.one (le_unrotate 0x40 rotated) (@unrotate_lt 0x40 rotated fits)
    rw [@rotate_unrotate 0x40 rotated fits] at signed
    exact signed
  | two fits =>
    have signed := SignedForm.two (le_unrotate 0x2000 rotated) (@unrotate_lt 0x2000 rotated fits)
    rw [@rotate_unrotate 0x2000 rotated fits] at signed
    exact signed
  | four fits =>
    have signed := SignedForm.four (le_unrotate 0x10000000 rotated)
      (@unrotate_lt 0x10000000 rotated fits)
    rw [@rotate_unrotate 0x10000000 rotated fits] at signed
    exact signed

/-- What the reader takes for a signed number is a form of it. -/
theorem recognizes_compressedSigned : Read.compressedSigned.Recognizes fun _ => SignedForm := by
  refine inverts_compressedSigned.recognizes fun data before input whole value after run => ?_
  obtain ⟨start, _, place, later⟩ := of_runAt_bind run
  cases place
  obtain ⟨rotated, middle, number, later⟩ := of_runAt_bind later
  obtain ⟨encoding, rest, rfl, form, rfl⟩ := (recognizes_compressedUnsigned whole _ _).mp number
  refine ⟨encoding, rest, rfl, ?_⟩
  simp only [runAt_bind, runAt_get, runAt_pure, Nat.add_sub_cancel_left] at later
  cases later
  exact signedForm_of_unsignedForm form

end Read

end ClrDecompiler
