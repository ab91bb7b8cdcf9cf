/-
This file shows for both kinds of compressed integers that a number is written exactly if a form
has room for it, that the shortest such form is appended, and that it is read back wherever it
stands. The forms of lengths are never taken for the mark of a missing text.
-/

import ClrDecompiler.Proofs.Bytes.CompressedNumber
import ClrDecompiler.Proofs.Metadata.HeapUpdate
import ClrDecompiler.Proofs.Text.Utf8

namespace ClrDecompiler

namespace Compressed

/-- The widths of the compressed forms. -/
inductive Width where
  | one
  | two
  | four
  deriving DecidableEq, Repr

namespace Width

def bytes : Width → Nat
  | .one => 1
  | .two => 2
  | .four => 4

/-- The bits that the mark of the width leaves for a number. -/
def bits : Width → Nat
  | .one => 7
  | .two => 14
  | .four => 29

/-- The number of negative numbers that fit if one of the bits is for the sign. -/
def half (width : Width) : Nat := 2 ^ (width.bits - 1)

def form : Width → Nat → List UInt8
  | .one => oneByte
  | .two => twoBytes
  | .four => fourBytes

@[simp] theorem form_length (width : Width) (stored : Nat) :
    (width.form stored).length = width.bytes := by
  cases width <;> rfl

/-- The first byte of a form has the mark of the width above its part of the number. -/
theorem form_lead {width : Width} {stored : Nat} (fits : stored < 2 ^ width.bits) :
    ∃ lead rest, width.form stored = lead :: rest ∧ lead < 0xE0 := by
  have below {part : Nat} (small : part < 0xE0) : UInt8.ofNat part < 0xE0 :=
    (UInt8.ofNat_lt_iff (Nat.lt_trans small (by decide))).mpr small
  cases width with
  | one =>
    have small : stored < 0x80 := fits
    exact ⟨_, _, rfl, below (by omega)⟩
  | two =>
    have small : stored < 0x4000 := fits
    exact ⟨_, _, rfl, below (by omega)⟩
  | four =>
    have small : stored < 0x20000000 := fits
    exact ⟨_, _, rfl, below (by omega)⟩

end Width

/-- A kind of numbers: which of them fit a width, and what is stored of them in its form. -/
structure Kind (α : Type) where
  Fits : Width → α → Prop
  stored : Width → α → Nat
  refusal : α → Fault
  decidable : ∀ width value, Decidable (Fits width value)
  fits_four : ∀ width value, Fits width value → Fits .four value
  stored_lt : ∀ width value, Fits width value → stored width value < 2 ^ width.bits

def unsigned : Kind Nat where
  Fits width value := value < 2 ^ width.bits
  stored _ value := value
  refusal value := .malformed (.compressedUnsigned value)
  decidable _ _ := inferInstance
  fits_four width value fits := by
    cases width <;> simp only [Width.bits] at * <;> omega
  stored_lt _ _ fits := fits

def signed : Kind Int where
  Fits width value := -(width.half : Int) ≤ value ∧ value < width.half
  stored width value := rotate width.half value
  refusal value := .malformed (.compressedSigned value)
  decidable _ _ := inferInstance
  fits_four width value fits := by
    cases width <;> simp only [Width.half, Width.bits] at * <;> omega
  stored_lt width value _ := by
    have room : 2 ^ width.bits = 2 * width.half := by cases width <;> rfl
    rw [room]
    exact rotate_lt _ (Nat.two_pow_pos _) value

namespace Kind

variable {α : Type} (kind : Kind α)

instance (width : Width) (value : α) : Decidable (kind.Fits width value) :=
  kind.decidable width value

/-- The form of the least width that the number fits. -/
def encode (value : α) : Except Fault (List UInt8) :=
  if kind.Fits .one value then .ok (Width.form .one (kind.stored .one value))
  else if kind.Fits .two value then .ok (Width.form .two (kind.stored .two value))
  else if kind.Fits .four value then .ok (Width.form .four (kind.stored .four value))
  else .error (kind.refusal value)

def Form (value : α) (encoding : List UInt8) : Prop :=
  ∃ width, kind.Fits width value ∧ encoding = width.form (kind.stored width value)

/-- The width is the least one that the number fits. -/
def IsNarrowest (value : α) (width : Width) : Prop :=
  kind.Fits width value ∧ ∀ other, kind.Fits other value → width.bytes ≤ other.bytes

variable {kind}

/-- A number is written with the narrowest of its widths. -/
theorem encode_eq_ok {value : α} {encoding : List UInt8}
    (encoded : kind.encode value = .ok encoding) :
    ∃ width, kind.IsNarrowest value width ∧ encoding = width.form (kind.stored width value) := by
  unfold encode at encoded
  split_ifs at encoded with one two four
  · cases encoded
    refine ⟨.one, ⟨one, ?_⟩, rfl⟩
    intro other _
    cases other <;> decide
  · cases encoded
    refine ⟨.two, ⟨two, ?_⟩, rfl⟩
    intro other fits
    cases other with
    | one => exact absurd fits one
    | two | four => decide
  · cases encoded
    refine ⟨.four, ⟨four, ?_⟩, rfl⟩
    intro other fits
    cases other with
    | one => exact absurd fits one
    | two => exact absurd fits two
    | four => decide

/-- A number that does not fit four bytes is refused. -/
theorem encode_of_not_fits {value : α} (large : ¬ kind.Fits .four value) :
    kind.encode value = .error (kind.refusal value) := by
  have one := mt (kind.fits_four .one value) large
  have two := mt (kind.fits_four .two value) large
  rw [encode, if_neg one, if_neg two, if_neg large]

/-- A number that fits four bytes is written. -/
theorem encode_of_fits {value : α} (fits : kind.Fits .four value) :
    ∃ encoding, kind.encode value = .ok encoding := by
  unfold encode
  split_ifs <;> exact ⟨_, rfl⟩

end Kind

theorem encodeUnsigned_eq (value : Nat) : encodeUnsigned value = unsigned.encode value := rfl

theorem encodeSigned_eq (value : Int) : encodeSigned value = signed.encode value := rfl

/-- The forms of the reader are those of the writer. -/
theorem unsignedForm_iff {value : Nat} {encoding : List UInt8} :
    UnsignedForm value encoding ↔ unsigned.Form value encoding := by
  constructor
  · intro form
    cases form with
    | one fits => exact ⟨.one, fits, rfl⟩
    | two fits => exact ⟨.two, fits, rfl⟩
    | four fits => exact ⟨.four, fits, rfl⟩
  · rintro ⟨width, fits, rfl⟩
    cases width with
    | one => exact .one fits
    | two => exact .two fits
    | four => exact .four fits

/-- The same holds for signed numbers. -/
theorem signedForm_iff {value : Int} {encoding : List UInt8} :
    SignedForm value encoding ↔ signed.Form value encoding := by
  constructor
  · intro form
    cases form with
    | one lower upper => exact ⟨.one, ⟨lower, upper⟩, rfl⟩
    | two lower upper => exact ⟨.two, ⟨lower, upper⟩, rfl⟩
    | four lower upper => exact ⟨.four, ⟨lower, upper⟩, rfl⟩
  · rintro ⟨width, ⟨lower, upper⟩, rfl⟩
    cases width with
    | one => exact .one lower upper
    | two => exact .two lower upper
    | four => exact .four lower upper

/-! Writing in place, one byte after the other. -/

def pushAll (bytes : List UInt8) : Metadata.Update Bytes Unit :=
  bytes.forM fun byte => modify fun data => data.push byte

theorem runAt_pushAll (bytes : List UInt8) (data : Bytes) :
    (pushAll bytes).runAt data = (.ok (), data.appendList bytes) := by
  induction bytes generalizing data with
  | nil => rfl
  | cons byte rest ih =>
    have first : (pushAll (byte :: rest)).runAt data = (pushAll rest).runAt (data.push byte) := rfl
    rw [first, ih]
    rfl

/-- The bytes of a number of the kind in its shortest form. -/
def Kind.write {α : Type} (kind : Kind α) (value : α) : Metadata.Update Bytes Unit :=
  if kind.Fits .one value then pushAll (Width.form .one (kind.stored .one value))
  else if kind.Fits .two value then pushAll (Width.form .two (kind.stored .two value))
  else if kind.Fits .four value then pushAll (Width.form .four (kind.stored .four value))
  else throw (kind.refusal value)

theorem Kind.runAt_write {α : Type} (kind : Kind α) (value : α) (data : Bytes) :
    (kind.write value).runAt data = match kind.encode value with
      | .ok bytes => (.ok (), data.appendList bytes)
      | .error fault => (.error fault, data) := by
  unfold write encode
  split_ifs
  · exact runAt_pushAll _ _
  · exact runAt_pushAll _ _
  · exact runAt_pushAll _ _
  · rfl

/-! What has been written is read back. -/

section

variable {α : Type} (kind : Kind α) (append : Bytes → α → Except Fault Bytes) (read : Read α)

/-- The bytes have the least width that the number fits, the reader takes them back wherever they
stand, and it takes no fewer bytes for the number. -/
structure IsShortest (value : α) (encoding : List UInt8) : Prop where
  narrowest : ∃ width, kind.IsNarrowest value width ∧ encoding.length = width.bytes
  least : ∀ data used, read.runAt data 0 = (.ok value, used) → encoding.length ≤ used
  lead : ∃ lead rest, encoding = lead :: rest ∧ lead < 0xE0
  reads : ∀ (data : Bytes) before rest, data.toList = before ++ (encoding ++ rest) →
    read.runAt data before.length = (.ok value, before.length + encoding.length)

/-- Numbers are written exactly if they fit the largest width, and read back. A number that is
refused leaves no bytes behind. -/
structure RoundTrips : Prop where
  accepts : ∀ data value, (∃ after, append data value = .ok after) ↔ kind.Fits .four value
  refuses : ∀ data value, ¬ kind.Fits .four value →
    append data value = .error (kind.refusal value)
  appends : ∀ data value after, append data value = .ok after →
    ∃ encoding, after.toList = data.toList ++ encoding ∧ IsShortest kind read value encoding
  inPlace : ∀ value, (kind.write value).Performs fun data =>
    (append data value).map fun after => ((), after)

variable {kind append read}

/-- No form that is read as the number is shorter than the one that is written. -/
theorem isShortest_of_encode (recognizes : read.Recognizes fun _ => kind.Form) {value : α}
    {encoding : List UInt8} (encoded : kind.encode value = .ok encoding) :
    IsShortest kind read value encoding := by
  obtain ⟨width, narrowest, rfl⟩ := Kind.encode_eq_ok encoded
  refine ⟨⟨width, narrowest, width.form_length _⟩, ?_, ?_, ?_⟩
  · -- Whatever is read as the number is a form of it, of a width that the number fits.
    intro data used run
    obtain ⟨_, rest, -, ⟨other, fits, rfl⟩, rfl⟩ :=
      (recognizes (List.nil_append data.toList).symm value used).mp run
    rw [width.form_length, other.form_length, List.length_nil, Nat.zero_add]
    exact narrowest.2 other fits
  · exact Width.form_lead (kind.stored_lt width value narrowest.1)
  · intro data before rest whole
    exact (recognizes whole value _).mpr ⟨_, rest, rfl, ⟨width, narrowest.1, rfl⟩, rfl⟩

/-- A kind of numbers whose forms are recognized is written and read back. -/
theorem roundTrips (recognizes : read.Recognizes fun _ => kind.Form)
    (encodes : ∀ data value, append data value = (kind.encode value).map data.appendList) :
    RoundTrips kind append read where
  accepts data value := by
    constructor
    · rintro ⟨after, written⟩
      by_contra large
      rw [encodes, Kind.encode_of_not_fits large] at written
      cases written
    · intro fits
      obtain ⟨encoding, encoded⟩ := Kind.encode_of_fits fits
      exact ⟨_, by rw [encodes, encoded]; rfl⟩
  refuses data value large := by
    rw [encodes, Kind.encode_of_not_fits large]
    rfl
  appends data value after written := by
    rw [encodes] at written
    obtain ⟨encoding, encoded, rfl⟩ := Outcome.of_map_eq_ok written
    exact ⟨encoding, Array.toList_appendList, isShortest_of_encode recognizes encoded⟩
  inPlace value := by
    intro data
    simp only [kind.runAt_write, encodes]
    cases kind.encode value <;> rfl

end

theorem recognizes_unsigned : Read.compressedUnsigned.Recognizes fun _ => unsigned.Form :=
  Read.recognizes_compressedUnsigned.congr fun _ _ _ => unsignedForm_iff

theorem recognizes_signed : Read.compressedSigned.Recognizes fun _ => signed.Form :=
  Read.recognizes_compressedSigned.congr fun _ _ _ => signedForm_iff

end Compressed

namespace Read

open Compressed

/-- Text of the given length, as it stands after the length. -/
def textOfLength (length : Nat) : Read (Option String) := do
  let start ← get
  match Utf8.decode (← bytes length).toList with
  | .ok text => return some text
  | .error flaw => throw (.malformed (.serializedText start (start + length) flaw))

theorem textOfLength_not_absent (length : Nat) (data : Bytes) (position : Nat) :
    ((textOfLength length).runAt data position).1 ≠ .ok none := by
  simp only [textOfLength, runAt_bind, runAt_get]
  rcases (bytes length).runAt data position with ⟨fault | found, after⟩
  · rintro ⟨⟩
  · cases decoded : Utf8.decode found.toList with
    | ok text =>
      simp only [decoded]
      rintro ⟨⟩
    | error flaw =>
      simp only [decoded]
      rintro ⟨⟩

/-- A text behind its length is read back. -/
theorem yields_textOfLength (text : String) (rest : List UInt8) :
    (textOfLength (Utf8.encode text).size).Yields ((Utf8.encode text).toList ++ rest)
      (some text) rest := by
  refine ⟨(Utf8.encode text).toList, rfl, fun data before whole => ?_⟩
  have chunk := (yields_bytes (Utf8.encode text).toList rest).runAt_append whole
  rw [Array.length_toList] at chunk
  simp only [textOfLength, runAt_bind, runAt_get, chunk, Array.toArray_toList, Utf8.decode_encode,
    runAt_pure, Array.length_toList]

section

variable {data : Bytes} {before encoding rest : List UInt8} {length : Nat}
  (form : UnsignedForm length encoding) (whole : data.toList = before ++ (encoding ++ rest))

include form whole

/-- A length never starts with the byte that stands for no text at all. -/
theorem runAt_serializedText :
    Read.serializedText.runAt data before.length =
      (textOfLength length).runAt data (before.length + encoding.length) := by
  obtain ⟨width, fits, rfl⟩ := unsignedForm_iff.mp form
  obtain ⟨lead, tail, same, low⟩ := Width.form_lead (unsigned.stored_lt width length fits)
  have number := (inverts_compressedUnsigned form rest).runAt_append whole
  have first : Read.peek.runAt data before.length = (.ok lead, before.length) := by
    rw [same] at whole
    have peeked : Read.peek.Yields ([] ++ (lead :: (tail ++ rest))) lead (lead :: (tail ++ rest)) :=
      yields_peek lead (tail ++ rest)
    exact peeked.runAt_append whole
  have other : (lead == 0xFF) = false := by
    rw [beq_eq_false_iff_ne]
    rintro rfl
    exact absurd low (by decide)
  rw [Read.serializedText, runAt_bind, first]
  simp only [other, Bool.false_eq_true, if_false]
  rw [runAt_bind, number]
  rfl

end

end Read

namespace Compressed

/-- Numbers of both kinds are read back wherever they have been written, and a length says that
there is a text. -/
theorem compressed_numbers_round_trip :
    RoundTrips unsigned appendUnsigned Read.compressedUnsigned ∧
      RoundTrips signed appendSigned Read.compressedSigned ∧
      ∀ (data : Bytes) (length : Nat) (after : Bytes), appendUnsigned data length = .ok after →
        ∀ (whole : Bytes) (rest : List UInt8), whole.toList = after.toList ++ rest →
          (Read.serializedText.runAt whole data.size).1 ≠ .ok none ∧
            ∀ (text : String) (tail : List UInt8), length = (Utf8.encode text).size →
              rest = (Utf8.encode text).toList ++ tail →
              Read.serializedText.runAt whole data.size =
                (.ok (some text), after.size + length) := by
  refine ⟨?_, ?_, ?_⟩
  · apply roundTrips recognizes_unsigned
    intro data value
    rw [appendUnsigned, encodeUnsigned_eq]
  · apply roundTrips recognizes_signed
    intro data value
    rw [appendSigned, encodeSigned_eq]
  · intro data length after written whole rest split
    obtain ⟨encoding, form, appended⟩ := appendUnsigned_eq_ok written
    have place : after.size = data.toList.length + encoding.length := by
      rw [← Array.length_toList, appended, List.length_append]
    -- What is left is about the bytes after the length.
    have texts : Read.serializedText.runAt whole data.size =
        (Read.textOfLength length).runAt whole after.size := by
      rw [place, ← Array.length_toList]
      exact Read.runAt_serializedText form (by rw [split, appended, List.append_assoc])
    rw [texts]
    refine ⟨Read.textOfLength_not_absent _ _ _, ?_⟩
    rintro text tail rfl rfl
    rw [← Array.length_toList, ← Array.length_toList]
    exact (Read.yields_textOfLength text tail).runAt_append split

/-- A letter of two bytes is read after its length, between other bytes. -/
theorem compressed_numbers_round_trip_sample :
    appendUnsigned #[7] 2 = .ok #[7, 2] ∧
      Read.serializedText.runAt #[7, 2, 0xC3, 0xA9, 9] 1 = (.ok (some "é"), 4) := by
  have written : appendUnsigned #[7] 2 = .ok #[7, 2] := by decide
  exact ⟨written, (compressed_numbers_round_trip.2.2 _ _ _ written #[7, 2, 0xC3, 0xA9, 9]
    [0xC3, 0xA9, 9] rfl).2 "é" [9] (by decide) (by decide)⟩

end Compressed

end ClrDecompiler
