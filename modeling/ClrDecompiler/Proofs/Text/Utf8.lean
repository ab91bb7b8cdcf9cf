/-
This file shows that every text is read back from its UTF-8 form, which has a zero byte only
where the text has one.
-/

import ClrDecompiler.Text.Utf8

namespace ClrDecompiler.Utf8

/-- A text is encoded character by character. -/
theorem toList_encode (text : String) :
    (encode text).toList = text.toList.flatMap String.utf8EncodeChar := by
  rw [encode, String.toUTF8_eq_toByteArray, ← String.utf8Encode_toList]
  exact List.toList_data_toByteArray

/-- The payload of a tail is its six low bits. -/
theorem toNat_tail (value : Nat) : (UInt8.ofNat (value % 64 + 128)).toNat = value % 64 + 128 :=
  UInt8.toNat_ofNat_of_lt' (by change _ < 256; omega)

theorem isTail_tail (value : Nat) : isTail (UInt8.ofNat (value % 64 + 128)) = true := by
  have same := toNat_tail value
  simp only [isTail, Bool.and_eq_true, decide_eq_true_eq, UInt8.le_iff_toNat_le,
    UInt8.lt_iff_toNat_lt, same]
  change 128 ≤ _ ∧ _ < 192
  omega

/-- The second byte of a character keeps to the range that its first byte leaves. -/
theorem isSecond_of_toNat {lead : Nat} {second : UInt8} (small : lead < 256)
    (tail : 128 ≤ second.toNat ∧ second.toNat < 192) (overlong : lead = 224 → 160 ≤ second.toNat)
    (surrogate : lead = 237 → second.toNat < 160) (overlongest : lead = 240 → 144 ≤ second.toNat)
    (last : lead = 244 → second.toNat < 144) : isSecond (UInt8.ofNat lead) second = true := by
  have same : (UInt8.ofNat lead).toNat = lead := UInt8.toNat_ofNat_of_lt' small
  have equal (other : UInt8) : (UInt8.ofNat lead == other) = decide (lead = other.toNat) := by
    rw [Bool.eq_iff_iff, beq_iff_eq, decide_eq_true_eq, ← UInt8.toNat_inj, same]
  simp only [isSecond, isTail, equal, UInt8.le_iff_toNat_le, UInt8.lt_iff_toNat_lt,
    decide_eq_true_eq, UInt8.reduceToNat]
  repeat' split
  all_goals
    simp only [Bool.and_eq_true, decide_eq_true_eq]
    omega

section Lead

variable {lead : Nat} (first last : UInt8) (small : lead < 256)

include small

theorem not_single (large : 128 ≤ lead) : ¬ UInt8.ofNat lead < 0x80 := by
  rw [UInt8.lt_iff_toNat_lt, UInt8.toNat_ofNat_of_lt' small]
  exact Nat.not_lt_of_le large

/-- A lead byte lies in a range if its number does. -/
theorem lead_range : (first ≤ UInt8.ofNat lead && UInt8.ofNat lead < last : Bool) =
    decide (first.toNat ≤ lead ∧ lead < last.toNat) := by
  rw [Bool.decide_and]
  simp only [UInt8.le_iff_toNat_le, UInt8.lt_iff_toNat_lt, UInt8.toNat_ofNat_of_lt' small]

theorem lead_inside (inside : first.toNat ≤ lead ∧ lead < last.toNat) :
    (first ≤ UInt8.ofNat lead && UInt8.ofNat lead < last : Bool) = true := by
  rw [lead_range first last small]
  exact decide_eq_true inside

theorem lead_above (above : last.toNat ≤ lead) :
    ¬ (first ≤ UInt8.ofNat lead && UInt8.ofNat lead < last : Bool) = true := by
  rw [lead_range first last small, decide_eq_true_eq]
  exact fun inside => Nat.not_lt_of_le above inside.2

end Lead

/-! Characters of one, two, three and four bytes. -/

section

variable (index value : Nat) (rest : List UInt8)

theorem decodeFrom_one (high : value < 128) :
    decodeFrom index (UInt8.ofNat value :: rest) =
      (Char.ofNat value :: (decodeFrom (index + 1) rest).1, (decodeFrom (index + 1) rest).2) := by
  have lead : (UInt8.ofNat value).toNat = value :=
    UInt8.toNat_ofNat_of_lt' (by change _ < 256; omega)
  have single : UInt8.ofNat value < 0x80 := by
    rw [UInt8.lt_iff_toNat_lt, lead]
    exact high
  rw [decodeFrom.eq_def]
  simp only [if_pos single, lead]

theorem decodeFrom_two (low : 128 ≤ value) (high : value < 2048) :
    decodeFrom index (UInt8.ofNat (value / 64 % 32 + 192) ::
        UInt8.ofNat (value % 64 + 128) :: rest) =
      (Char.ofNat value :: (decodeFrom (index + 2) rest).1, (decodeFrom (index + 2) rest).2) := by
  have bound : value / 64 % 32 + 192 < 256 := by omega
  have lead : (UInt8.ofNat (value / 64 % 32 + 192)).toNat = value / 64 % 32 + 192 :=
    UInt8.toNat_ofNat_of_lt' bound
  have noSingle := not_single bound (by omega)
  have pair := lead_inside 0xC2 0xE0 bound (by
    change 194 ≤ _ ∧ _ < 224
    omega)
  have payload : codePoint (value / 64 % 32 + 192 - 192) [UInt8.ofNat (value % 64 + 128)] =
      Char.ofNat value := by
    simp only [codePoint, List.foldl_cons, List.foldl_nil, toNat_tail]
    congr 1
    omega
  rw [decodeFrom.eq_def]
  simp only [if_neg noSingle, if_pos pair, isTail_tail, if_true, lead, payload]

theorem decodeFrom_three (low : 2048 ≤ value) (high : value < 65536)
    (scalar : value < 0xD800 ∨ 0xDFFF < value) :
    decodeFrom index (UInt8.ofNat (value / 4096 % 16 + 224) ::
        UInt8.ofNat (value / 64 % 64 + 128) :: UInt8.ofNat (value % 64 + 128) :: rest) =
      (Char.ofNat value :: (decodeFrom (index + 3) rest).1, (decodeFrom (index + 3) rest).2) := by
  have bound : value / 4096 % 16 + 224 < 256 := by omega
  have lead : (UInt8.ofNat (value / 4096 % 16 + 224)).toNat = value / 4096 % 16 + 224 :=
    UInt8.toNat_ofNat_of_lt' bound
  have noSingle := not_single bound (by omega)
  have noPair := lead_above 0xC2 0xE0 bound (Nat.le_add_left 224 _)
  have triple := lead_inside 0xE0 0xF0 bound (by
    change 224 ≤ _ ∧ _ < 240
    omega)
  have second : isSecond (UInt8.ofNat (value / 4096 % 16 + 224))
      (UInt8.ofNat (value / 64 % 64 + 128)) = true := by
    apply isSecond_of_toNat bound <;> rw [toNat_tail] <;> omega
  have payload : codePoint (value / 4096 % 16 + 224 - 224)
      [UInt8.ofNat (value / 64 % 64 + 128), UInt8.ofNat (value % 64 + 128)] = Char.ofNat value := by
    simp only [codePoint, List.foldl_cons, List.foldl_nil, toNat_tail]
    congr 1
    omega
  rw [decodeFrom.eq_def]
  simp only [if_neg noSingle, if_neg noPair, if_pos triple, second, isTail_tail, if_true, lead,
    payload]

theorem decodeFrom_four (low : 65536 ≤ value) (high : value < 0x110000) :
    decodeFrom index (UInt8.ofNat (value / 262144 % 8 + 240) ::
        UInt8.ofNat (value / 4096 % 64 + 128) :: UInt8.ofNat (value / 64 % 64 + 128) ::
          UInt8.ofNat (value % 64 + 128) :: rest) =
      (Char.ofNat value :: (decodeFrom (index + 4) rest).1, (decodeFrom (index + 4) rest).2) := by
  have bound : value / 262144 % 8 + 240 < 256 := by omega
  have lead : (UInt8.ofNat (value / 262144 % 8 + 240)).toNat = value / 262144 % 8 + 240 :=
    UInt8.toNat_ofNat_of_lt' bound
  have noSingle := not_single bound (by omega)
  have noPair := lead_above 0xC2 0xE0 bound (by change 224 ≤ _; omega)
  have noTriple := lead_above 0xE0 0xF0 bound (Nat.le_add_left 240 _)
  have quadruple := lead_inside 0xF0 0xF5 bound (by
    change 240 ≤ _ ∧ _ < 245
    omega)
  have second : isSecond (UInt8.ofNat (value / 262144 % 8 + 240))
      (UInt8.ofNat (value / 4096 % 64 + 128)) = true := by
    apply isSecond_of_toNat bound <;> rw [toNat_tail] <;> omega
  have payload : codePoint (value / 262144 % 8 + 240 - 240)
      [UInt8.ofNat (value / 4096 % 64 + 128), UInt8.ofNat (value / 64 % 64 + 128),
        UInt8.ofNat (value % 64 + 128)] = Char.ofNat value := by
    simp only [codePoint, List.foldl_cons, List.foldl_nil, toNat_tail]
    congr 1
    omega
  rw [decodeFrom.eq_def]
  simp only [if_neg noSingle, if_neg noPair, if_neg noTriple, if_pos quadruple, second,
    isTail_tail, if_true, lead, payload]

end

/-- What is left after a character is decoded like a text of its own. -/
theorem decodeFrom_char (index : Nat) (c : Char) (rest : List UInt8) :
    decodeFrom index (String.utf8EncodeChar c ++ rest) =
      (c :: (decodeFrom (index + c.utf8Size) rest).1,
        (decodeFrom (index + c.utf8Size) rest).2) := by
  have scalar : c.val.toNat < 0xD800 ∨ 0xDFFF < c.val.toNat ∧ c.val.toNat < 0x110000 := c.valid
  have back : Char.ofNat c.val.toNat = c := Char.ofNat_toNat c
  rw [← String.length_utf8EncodeChar c, String.utf8EncodeChar]
  generalize c.val.toNat = value at *
  split
  · exact back ▸ decodeFrom_one index value rest (by omega)
  split
  · exact back ▸ decodeFrom_two index value rest (by omega) (by omega)
  split
  · exact back ▸ decodeFrom_three index value rest (by omega) (by omega) (by omega)
  · exact back ▸ decodeFrom_four index value rest (by omega) (by omega)

/-- The bytes of characters are read back without a fault. -/
theorem decodeFrom_chars (index : Nat) (text : List Char) :
    decodeFrom index (text.flatMap String.utf8EncodeChar) = (text, none) := by
  induction text generalizing index with
  | nil => rfl
  | cons c rest ih => rw [List.flatMap_cons, decodeFrom_char, ih]

/-- The bytes of a text are read back. -/
theorem decode_encode (text : String) : decode (encode text).toList = .ok text := by
  rw [toList_encode, decode, decodeFrom_chars]
  exact congrArg _ String.ofList_toList

/-- No byte of a text is replaced. -/
theorem decodeLossy_encode (text : String) : decodeLossy (encode text).toList = text := by
  rw [toList_encode, decodeLossy, replaceFlaws, decodeFrom_chars]
  exact String.ofList_toList

theorem zero_not_mem_encodeChar {c : Char} (nonzero : c ≠ '\x00') :
    0 ∉ String.utf8EncodeChar c := by
  have positive : 0 < c.val.toNat := by
    apply Nat.pos_of_ne_zero
    intro zero
    exact nonzero (Char.ext (UInt32.toNat_inj.mp zero))
  have apart (value : Nat) (low : 0 < value) (high : value < 256) : 0 ≠ UInt8.ofNat value := by
    intro same
    have zero := congrArg UInt8.toNat same
    rw [UInt8.toNat_ofNat_of_lt' high] at zero
    exact Nat.ne_of_lt low zero
  rw [String.utf8EncodeChar]
  generalize c.val.toNat = value at *
  repeat' split
  all_goals
    simp only [List.mem_cons, List.not_mem_nil, or_false, not_or]
    repeat' constructor
    all_goals
      apply apart <;> omega

/-- A text without the zero character has no zero byte. -/
theorem zero_not_mem_encode {text : String} (plain : '\x00' ∉ text.toList) :
    0 ∉ (encode text).toList := by
  rw [toList_encode, List.mem_flatMap]
  intro ⟨c, member, zero⟩
  apply zero_not_mem_encodeChar _ zero
  intro same
  exact plain (same ▸ member)

end ClrDecompiler.Utf8
