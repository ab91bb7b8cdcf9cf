/-
This file shows that every text is read back from its UTF-16 form.
-/

import ClrDecompiler.Text.Utf16

namespace ClrDecompiler.Utf16

theorem isHighSurrogate_ofNat {value : Nat} (fits : value < 0x10000) :
    isHighSurrogate (UInt16.ofNat value) = decide (0xD800 ≤ value ∧ value < 0xDC00) := by
  simp [isHighSurrogate, UInt16.le_iff_toNat_le, UInt16.lt_iff_toNat_lt,
    UInt16.toNat_ofNat_of_lt' fits]

theorem isLowSurrogate_ofNat {value : Nat} (fits : value < 0x10000) :
    isLowSurrogate (UInt16.ofNat value) = decide (0xDC00 ≤ value ∧ value < 0xE000) := by
  simp [isLowSurrogate, UInt16.le_iff_toNat_le, UInt16.lt_iff_toNat_lt,
    UInt16.toNat_ofNat_of_lt' fits]

/-- A unit that is no surrogate is a character by itself. -/
theorem decode_single {value : Nat} (fits : value < 0x10000)
    (scalar : value < 0xD800 ∨ 0xDFFF < value) (rest : List UInt16) :
    decode (UInt16.ofNat value :: rest) = Char.ofNat value :: decode rest := by
  have high : isHighSurrogate (UInt16.ofNat value) = false := by
    rw [isHighSurrogate_ofNat fits, decide_eq_false_iff_not]
    omega
  have low : isLowSurrogate (UInt16.ofNat value) = false := by
    rw [isLowSurrogate_ofNat fits, decide_eq_false_iff_not]
    omega
  cases rest <;> simp [decode, high, low, UInt16.toNat_ofNat_of_lt' fits]

/-- The two halves of a character above the 16 bits are put together again. -/
theorem decode_pair {value : Nat} (large : 0x10000 ≤ value) (fits : value < 0x110000)
    (rest : List UInt16) :
    decode (UInt16.ofNat (0xD800 + (value - 0x10000) / 0x400) ::
        UInt16.ofNat (0xDC00 + (value - 0x10000) % 0x400) :: rest) =
      Char.ofNat value :: decode rest := by
  have firstFits : 0xD800 + (value - 0x10000) / 0x400 < 0x10000 := by omega
  have secondFits : 0xDC00 + (value - 0x10000) % 0x400 < 0x10000 := by omega
  have high : isHighSurrogate (UInt16.ofNat (0xD800 + (value - 0x10000) / 0x400)) = true := by
    rw [isHighSurrogate_ofNat firstFits, decide_eq_true_iff]
    omega
  have low : isLowSurrogate (UInt16.ofNat (0xDC00 + (value - 0x10000) % 0x400)) = true := by
    rw [isLowSurrogate_ofNat secondFits, decide_eq_true_iff]
    omega
  have whole : 0x10000 + (0xD800 + (value - 0x10000) / 0x400 - 0xD800) * 0x400 +
      (0xDC00 + (value - 0x10000) % 0x400 - 0xDC00) = value := by omega
  rw [decode, if_pos high, if_pos low, UInt16.toNat_ofNat_of_lt' firstFits,
    UInt16.toNat_ofNat_of_lt' secondFits, whole]

/-- The units of a character are read as the character. -/
theorem decode_encodeChar (c : Char) (rest : List UInt16) :
    decode (encodeChar c ++ rest) = c :: decode rest := by
  have scalar : c.toNat < 0xD800 ∨ 0xDFFF < c.toNat ∧ c.toNat < 0x110000 := c.valid
  have back : Char.ofNat c.toNat = c := Char.ofNat_toNat c
  rw [encodeChar]
  by_cases small : c.toNat < 0x10000
  · simp only [if_pos small, List.singleton_append]
    rw [decode_single small (by omega), back]
  · simp only [if_neg small, List.cons_append, List.nil_append]
    rw [decode_pair (by omega) (by omega), back]

/-- The units of a text are read back. -/
theorem decode_encode (text : String) : decode (encode text) = text.toList := by
  rw [encode]
  induction text.toList with
  | nil => rfl
  | cons c rest ih => rw [List.flatMap_cons, decode_encodeChar, ih]

end ClrDecompiler.Utf16
