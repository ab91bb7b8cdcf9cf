/-
This file shows of texts that they have no line ends.
-/

import ClrDecompiler.Decimal.Shortest
import ClrDecompiler.Proofs.Text.Pieces
import ClrDecompiler.Text.Hex

namespace ClrDecompiler.Text

/-- A text without line ends. -/
def IsSingleLine (text : String) : Prop :=
  '\n' ∉ text.toList

instance (text : String) : Decidable (IsSingleLine text) :=
  inferInstanceAs (Decidable ('\n' ∉ text.toList))

@[simp] theorem isSingleLine_append (first second : String) :
    IsSingleLine (first ++ second) ↔ IsSingleLine first ∧ IsSingleLine second := by
  rw [IsSingleLine, String.toList_append, List.mem_append, not_or]
  rfl

theorem isSingleLine_ofList {text : List Char} :
    IsSingleLine (String.ofList text) ↔ '\n' ∉ text := by
  rw [IsSingleLine, String.toList_ofList]

/-- Single lines that are joined make up one. -/
theorem isSingleLine_intercalate {separator : String} (apart : IsSingleLine separator) :
    ∀ {parts : List String}, (∀ part ∈ parts, IsSingleLine part) →
      IsSingleLine (separator.intercalate parts)
  | [], _ => by
    rw [String.intercalate_nil]
    decide
  | [part], single => by simpa using single
  | first :: second :: rest, single => by
    obtain ⟨head, tail⟩ := List.forall_mem_cons.mp single
    rw [String.intercalate_cons_cons, isSingleLine_append, isSingleLine_append]
    exact ⟨⟨head, apart⟩, isSingleLine_intercalate apart tail⟩

/-! Numbers. -/

/-- The digits of a number are characters for digits. -/
theorem exists_digitChar_of_mem {base value : Nat} {c : Char}
    (member : c ∈ Nat.toDigits base value) : ∃ digit, c = Nat.digitChar digit := by
  have core (fuel value : Nat) (digits : List Char)
      (known : ∀ c ∈ digits, ∃ digit, c = Nat.digitChar digit) :
      ∀ c ∈ Nat.toDigitsCore base fuel value digits, ∃ digit, c = Nat.digitChar digit := by
    induction fuel generalizing value digits with
    | zero => exact known
    | succ fuel ih =>
      have more := List.forall_mem_cons.mpr ⟨⟨value % base, rfl⟩, known⟩
      rw [Nat.toDigitsCore]
      split
      · exact more
      · exact ih _ _ more
  exact core _ _ [] (List.forall_mem_nil _) c member

theorem lineEnd_not_mem_toDigits (base value : Nat) : '\n' ∉ Nat.toDigits base value := by
  intro member
  obtain ⟨digit, same⟩ := exists_digitChar_of_mem member
  exact Nat.digitChar_ne '\n' (by decide) same.symm

/-- A number is written in one line. -/
theorem isSingleLine_toString (number : Nat) : IsSingleLine (toString number) := by
  rw [IsSingleLine, Nat.toString_eq_repr, Nat.toList_repr]
  exact lineEnd_not_mem_toDigits 10 number

theorem isSingleLine_toString_int (number : Int) : IsSingleLine (toString number) := by
  rw [Int.toString_eq_repr, Int.repr_eq_if]
  split
  · exact isSingleLine_toString number.toNat
  · rw [isSingleLine_append]
    exact ⟨by decide, isSingleLine_toString (-number).toNat⟩

theorem lineEnd_not_mem_digits (width value : Nat) : '\n' ∉ Hex.digits width value := by
  rw [Hex.digits, List.mem_append, not_or]
  exact ⟨fun member => absurd (List.eq_of_mem_replicate member) (by decide),
    lineEnd_not_mem_toDigits 16 value⟩

theorem isSingleLine_lower (width value : Nat) : IsSingleLine (Hex.lower width value) :=
  isSingleLine_ofList.mpr (lineEnd_not_mem_digits width value)

theorem isSingleLine_hex (data : Array UInt8) : IsSingleLine (Hex.ofBytes data) := by
  rw [Hex.ofBytes]
  refine Array.foldl_induction (fun _ text => IsSingleLine text) (by decide) ?_
  intro index text single
  rw [isSingleLine_append]
  exact ⟨single, isSingleLine_lower _ _⟩

/-- No digit becomes a line end in upper case. -/
theorem lineEnd_not_mem_upper (width value : Nat) :
    '\n' ∉ (Hex.digits width value).map Char.toUpper := by
  have upper (digit : Nat) : (Nat.digitChar digit).toUpper ≠ '\n' := by
    match digit with
    | 0 | 1 | 2 | 3 | 4 | 5 | 6 | 7 | 8 | 9 | 10 | 11 | 12 | 13 | 14 | 15 => decide
    | rest + 16 =>
      rw [Nat.digitChar_eq_star.mpr (Nat.le_add_left 16 rest)]
      decide
  intro member
  obtain ⟨c, inside, same⟩ := List.mem_map.mp member
  rw [Hex.digits] at inside
  rcases List.mem_append.mp inside with zero | significant
  · rw [List.eq_of_mem_replicate zero] at same
    exact absurd same (by decide)
  · obtain ⟨digit, rfl⟩ := exists_digitChar_of_mem significant
    exact upper digit same

theorem isSingleLine_signed (negative : Bool) {text : String} (single : IsSingleLine text) :
    IsSingleLine (Decimal.signed negative text) := by
  rw [Decimal.signed]
  split
  · rw [isSingleLine_append]
    exact ⟨by decide, single⟩
  · exact single

theorem isSingleLine_positional (count : Nat) (power : Int) :
    IsSingleLine (Decimal.positional count power) := by
  have padded (zeros : Nat) : '\n' ∉ List.replicate zeros '0' ++ Nat.toDigits 10 count := by
    rw [List.mem_append, not_or]
    exact ⟨fun member => absurd (List.eq_of_mem_replicate member) (by decide),
      lineEnd_not_mem_toDigits 10 count⟩
  rw [Decimal.positional]
  split
  · rw [isSingleLine_ofList, List.mem_append, not_or]
    exact ⟨lineEnd_not_mem_toDigits 10 count,
      fun member => absurd (List.eq_of_mem_replicate member) (by decide)⟩
  · have single := padded ((-power).toNat + 1 - (Nat.toDigits 10 count).length)
    dsimp only
    generalize List.replicate _ '0' ++ Nat.toDigits 10 count = digits at single ⊢
    have whole (taken : Nat) : '\n' ∉ digits.take taken :=
      fun member => single (List.mem_of_mem_take member)
    split
    · exact isSingleLine_ofList.mpr (whole _)
    · rw [isSingleLine_ofList, List.mem_append, List.mem_cons, List.mem_reverse, not_or, not_or]
      refine ⟨whole _, by decide, fun member => single ?_⟩
      exact List.mem_of_mem_drop (List.mem_reverse.mp ((List.dropWhile_sublist _).subset member))

/-- A binary number is written in one line. -/
theorem isSingleLine_decimal (format : Decimal.BinaryFormat) (bits : Nat) :
    IsSingleLine (Decimal.text format bits) := by
  rw [Decimal.text]
  split
  · decide
  · exact isSingleLine_signed _ (by decide)
  · exact isSingleLine_signed _ (by decide)
  · exact isSingleLine_signed _ (isSingleLine_positional _ _)

end ClrDecompiler.Text
