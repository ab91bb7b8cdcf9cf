/-
This file shows which values the literals of strings and characters have in C#.
-/

import ClrDecompiler.Proofs.Source.Lexical
import ClrDecompiler.Source.Literal
import Mathlib.Algebra.Group.Nat.Defs

namespace ClrDecompiler.Source

/-! Hexadecimal digits. -/

theorem hexDigit?_digitChar {digit : Nat} (small : digit < 16) :
    hexDigit? (Nat.digitChar digit).toUpper = some digit := by
  have all : ∀ digit : Fin 16, hexDigit? (Nat.digitChar digit).toUpper = some digit.val := by
    decide
  exact all ⟨digit, small⟩

theorem hexValue?_append (front : List Char) (c : Char) : hexValue? (front ++ [c]) =
    (hexValue? front).bind fun value => (hexDigit? c).map (value * 16 + ·) := by
  rw [hexValue?, List.foldlM_append]
  simp only [List.foldlM_cons, List.foldlM_nil, Option.bind_eq_bind, bind_pure]
  rfl

/-- The digits of a number have its value. -/
theorem hexValue?_toDigits (value : Nat) :
    hexValue? ((Nat.toDigits 16 value).map Char.toUpper) = some value := by
  induction value using Nat.strongRecOn with
  | ind value ih =>
    rw [Nat.toDigits_eq_if (by decide)]
    split
    · next small =>
      simp [hexValue?, hexDigit?_digitChar small]
    · next large =>
      have digit := hexDigit?_digitChar (Nat.mod_lt value (show 0 < 16 by decide))
      rw [List.map_append, List.map_singleton, hexValue?_append, ih (value / 16) (by omega), digit]
      simp only [Option.bind_some, Option.map_some, Option.some_inj]
      omega

theorem hexValue?_zeros (count : Nat) (digits : List Char) :
    hexValue? (List.replicate count '0' ++ digits) = hexValue? digits := by
  induction count with
  | zero => rfl
  | succ count ih =>
    rw [List.replicate_succ, List.cons_append, hexValue?, List.foldlM_cons]
    exact ih

/-- Zeros in front do not change the value. -/
theorem hexValue?_upper (width value : Nat) :
    hexValue? (Hex.upper width value).toList = some value := by
  have zero : Char.toUpper '0' = '0' := by decide
  rw [Hex.upper, String.toList_ofList, Hex.digits, List.map_append, List.map_replicate, zero,
    hexValue?_zeros, hexValue?_toDigits]

/-- A number that fits its width is written with it. -/
theorem length_upper {width value : Nat} (positive : 0 < width) (fits : value < 16 ^ width) :
    (Hex.upper width value).toList.length = width := by
  have short := (Nat.length_toDigits_le_iff (by decide : 1 < 16) positive).mpr fits
  rw [Hex.upper, String.toList_ofList, List.length_map, Hex.digits, List.length_append,
    List.length_replicate, Nat.sub_add_cancel short]

/-! Elements of literals. -/

/-- The escape of a unit is read as the unit. -/
theorem readElement_unitEscape (quote : Char) {unit : Nat} (fits : unit < 0x10000)
    (rest : List Char) :
    readElement quote (unitEscape unit ++ rest) = some ([UInt16.ofNat unit], rest) := by
  have length := length_upper (by decide : 0 < 4) fits
  have value := hexValue?_upper 4 unit
  rw [unitEscape]
  generalize (Hex.upper 4 unit).toList = digits at length value ⊢
  have long : ¬ (digits ++ rest).length < 4 := by
    rw [List.length_append]
    omega
  show readDigits 4 (digits ++ rest) = _
  rw [readDigits, if_neg long, ← length, List.take_left, List.drop_left, value, Option.bind_some,
    unitsOf?, if_pos fits, Option.map_some]

/-- The line ends that are not classed as controls. -/
def isSeparator (c : Char) : Bool :=
  c == '\u2028' || c == '\u2029'

theorem isSeparator_of_isLineEnd {c : Char} (ends : isLineEnd c = true) :
    isControl c = true ∨ isSeparator c = true := by
  have all : ∀ c ∈ lineEnds, isControl c = true ∨ isSeparator c = true :=
    List.all_iff_forall_prop.mp (by decide)
  exact all c (List.contains_iff_mem.mp ends)

/-- An escaped character that is no separator is read as its units. -/
theorem readElement_escape {quote c : Char} (quotes : quote = '"' ∨ quote = '\'')
    (plain : isSeparator c = false) (rest : List Char) :
    readElement quote (escape quote c ++ rest) = some (Utf16.encodeChar c, rest) := by
  unfold escape
  split
  case h_6 backslash _ _ _ _ =>
    split
    · next same =>
      rw [beq_iff_eq.mp same]
      rcases quotes with rfl | rfl <;> rfl
    · next other =>
      split
      · next control =>
        have small : c.toNat < 0x10000 := by
          simp only [isControl, Bool.or_eq_true, Bool.and_eq_true, decide_eq_true_eq] at control
          omega
        rw [readElement_unitEscape quote small, Utf16.encodeChar, if_pos small]
      · next ordinary =>
        have single : isLineEnd c = false := by
          rw [Bool.eq_false_iff]
          intro ends
          rcases isSeparator_of_isLineEnd ends with control | separator
          · exact ordinary control
          · exact Bool.eq_false_iff.mp plain separator
        exact readElement_plain (mt beq_iff_eq.mpr other) backslash single rest
  all_goals rfl

/-- A line end that is no control stands in the literal as it is. -/
theorem readBody_separator {c : Char} (separator : isSeparator c = true) (rest : List Char) :
    readBody (escape '"' c ++ rest) = none := by
  rw [isSeparator, Bool.or_eq_true, beq_iff_eq, beq_iff_eq] at separator
  rcases separator with rfl | rfl <;> exact readBody_of_none (by decide) rfl

/-! Literals. -/

/-- An escaped text is read back unless it has a separator. -/
theorem readBody_escape (text rest : List Char) :
    readBody (text.flatMap (escape '"') ++ '"' :: rest) =
      if text.any isSeparator then none else some (text.flatMap Utf16.encodeChar, rest) := by
  induction text with
  | nil => exact readBody_quote rest
  | cons c others ih =>
    rw [List.flatMap_cons, List.append_assoc, List.any_cons]
    cases separator : isSeparator c with
    | true => exact readBody_separator separator _
    | false =>
      rw [readBody_of_element (readElement_escape (.inl rfl) separator _), ih, Bool.false_or]
      split <;> rfl

theorem encodeChar_ofNat {unit : UInt16} (scalar : ¬ (0xD800 ≤ unit ∧ unit < 0xE000)) :
    Utf16.encodeChar (Char.ofNat unit.toNat) = [unit] := by
  have fits := unit.toNat_lt
  have valid : unit.toNat.isValidChar := by
    rw [UInt16.le_iff_toNat_le, UInt16.lt_iff_toNat_lt] at scalar
    change ¬ (0xD800 ≤ unit.toNat ∧ unit.toNat < 0xE000) at scalar
    simp only [Nat.isValidChar]
    omega
  have value : (Char.ofNat unit.toNat).toNat = unit.toNat := by
    rw [Char.ofNat, dif_pos valid]
    rfl
  rw [Utf16.encodeChar, value, if_pos fits, UInt16.ofNat_toNat]

/-- A single unit between quotes is a character. -/
theorem readCharacter?_of_element {body rest : List Char} {unit : UInt16}
    (read : readElement '\'' (body ++ '\'' :: rest) = some ([unit], '\'' :: rest)) :
    readCharacter? ('\'' :: body ++ '\'' :: rest) = some (unit, rest) := by
  rw [List.cons_append, readCharacter?, read]
  rfl

/-- The literal of a text is one string literal of C#, whatever follows it, and has the units of the
text as its value, unless the text has one of the line ends that are not classed as controls: then
it is no literal. The same holds of the literals of characters. -/
theorem literals_denote (text : String) (unit : UInt16) (rest : List Char) :
    readString? ((literal (.string text)).toList ++ rest) =
        (if text.toList.any isSeparator then none else some (Utf16.encode text, rest)) ∧
      readCharacter? ((literal (.char unit)).toList ++ rest) =
        if unit = 0x2028 ∨ unit = 0x2029 then none else some (unit, rest) := by
  constructor
  · rw [literal, stringLiteral, quoted, String.toList_ofList, List.append_assoc, List.cons_append]
    exact readBody_escape text.toList rest
  · by_cases separator : unit = 0x2028 ∨ unit = 0x2029
    · rw [if_pos separator]
      rcases separator with rfl | rfl <;> rfl
    · rw [if_neg separator, literal, charLiteral]
      split
      · rw [String.toList_ofList, List.append_assoc]
        refine readCharacter?_of_element ?_
        rw [readElement_unitEscape _ unit.toNat_lt, UInt16.ofNat_toNat]
      · next scalar =>
        have value := encodeChar_ofNat scalar
        rw [quoted, String.toList_ofList, List.flatMap_singleton, List.append_assoc]
        generalize Char.ofNat unit.toNat = c at value ⊢
        have plain : isSeparator c = false := by
          rw [isSeparator, Bool.or_eq_false_iff, beq_eq_false_iff_ne, beq_eq_false_iff_ne]
          constructor
          · rintro rfl
            exact separator (.inl (List.cons.inj value).1.symm)
          · rintro rfl
            exact separator (.inr (List.cons.inj value).1.symm)
        refine readCharacter?_of_element ?_
        rw [← value]
        exact readElement_escape (.inr rfl) plain _

/-- A text with a line separator is written as a string literal that does not end in its line. -/
theorem separator_breaks_literal :
    literal (.string "\u2028") = "\"\u2028\"" ∧ isLineEnd '\u2028' = true ∧
      readString? "\"\u2028\"".toList = none ∧ readCharacter? "'\u2028'".toList = none := by
  decide +kernel

end ClrDecompiler.Source
