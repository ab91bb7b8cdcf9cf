/-
This file looks at the entries of the heap of string literals: which bytes are written for a
text, and whether the flag behind its units announces all units that have to be announced.
-/

import ClrDecompiler.Proofs.Metadata.HeapRoundTrip

namespace ClrDecompiler.Metadata.UserStringHeapBuilder

/-- The units that have to be announced: those of more than one byte and those whose low byte is
one of the rarer control characters, the apostrophe, the hyphen or the delete character. -/
def MustAnnounce (unit : UInt16) : Prop :=
  unit.toNat / 0x100 ≠ 0 ∨ (0x01 ≤ unit.toNat % 0x100 ∧ unit.toNat % 0x100 ≤ 0x08) ∨
    (0x0E ≤ unit.toNat % 0x100 ∧ unit.toNat % 0x100 ≤ 0x1F) ∨
    unit.toNat % 0x100 = 0x27 ∨ unit.toNat % 0x100 = 0x2D ∨ unit.toNat % 0x100 = 0x7F

instance (unit : UInt16) : Decidable (MustAnnounce unit) :=
  inferInstanceAs (Decidable (_ ∨ _))

/-- The delete character is left out, and all of the upper half of the first byte is announced. -/
theorem isSpecial_iff (unit : UInt16) :
    isSpecial unit = true ↔ unit ≠ 0x7F ∧ (MustAnnounce unit ∨ 0x80 ≤ unit) := by
  have fits := unit.toNat_lt
  simp only [isSpecial, MustAnnounce, Bool.or_eq_true, Bool.and_eq_true, decide_eq_true_eq,
    beq_iff_eq, UInt16.le_iff_toNat_le, Ne, ← UInt16.toNat_inj, UInt16.reduceToNat]
  omega

/-- The flag covers a text unless the delete character is the only reason to announce it. -/
theorem announced_iff (units : List UInt16) :
    ((∃ unit ∈ units, MustAnnounce unit) → ∃ unit ∈ units, isSpecial unit = true) ↔
      (0x7F ∈ units → ∃ unit ∈ units, isSpecial unit = true) := by
  constructor
  · intro covered delete
    exact covered ⟨0x7F, delete, by decide⟩
  · rintro covered ⟨unit, member, must⟩
    by_cases delete : unit = 0x7F
    · exact covered (delete ▸ member)
    · exact ⟨unit, member, (isSpecial_iff unit).mpr ⟨delete, .inl must⟩⟩

/-- Each unit is written with its low byte first. -/
theorem encodeUnits_eq (units : List UInt16) : encodeUnits units =
    units.flatMap fun unit =>
      [UInt8.ofNat (unit.toNat % 0x100), UInt8.ofNat (unit.toNat / 0x100)] := by
  have bytes (unit : UInt16) : Bytes.littleEndian 2 unit.toNat =
      [UInt8.ofNat (unit.toNat % 0x100), UInt8.ofNat (unit.toNat / 0x100)] := by
    have fits := unit.toNat_lt
    have high : unit.toNat / 0x100 % 0x100 = unit.toNat / 0x100 := by omega
    simp only [Bytes.littleEndian, high]
  simp only [encodeUnits, bytes]

/-- An addition appends the compressed size of the entry, the units of the text with their low
bytes first, and a flag of zero or one. The flag announces every text that has to be announced
exactly if it does not depend on the delete character. -/
theorem add_announces_iff {builder after : UserStringHeapBuilder} {text : String} {index : Nat}
    (added : builder.add text = .ok (index, after)) : ∃ size flag,
    Compressed.encodeUnsigned (2 * (Utf16.encode text).length + 1) = .ok size ∧
    index = builder.data.size ∧
    after.data.toList = builder.data.toList ++ (size ++ ((Utf16.encode text).flatMap fun unit =>
      [UInt8.ofNat (unit.toNat % 0x100), UInt8.ofNat (unit.toNat / 0x100)]) ++ [flag]) ∧
    (flag = 0 ∨ flag = 1) ∧
    (((∃ unit ∈ Utf16.encode text, MustAnnounce unit) → flag = 1) ↔
      (0x7F ∈ Utf16.encode text →
        ∃ unit ∈ Utf16.encode text, unit ≠ 0x7F ∧ (MustAnnounce unit ∨ 0x80 ≤ unit))) := by
  obtain ⟨size, encoded, place, grown⟩ := add_eq_ok added
  rw [Nat.mul_comm] at encoded
  refine ⟨size, if (Utf16.encode text).any isSpecial then 1 else 0, encoded, place, ?_, ?_, ?_⟩
  · rw [grown, ← encodeUnits_eq]
    simp [entry]
  · split
    · exact .inr rfl
    · exact .inl rfl
  · have flagged : (if (Utf16.encode text).any isSpecial then (1 : UInt8) else 0) = 1 ↔
        ∃ unit ∈ Utf16.encode text, isSpecial unit = true := by
      simp
    simp only [flagged, ← isSpecial_iff]
    exact announced_iff (Utf16.encode text)

/-- A hyphen announces a text that has the delete character too. -/
theorem add_announces_iff_hyphen : ∃ after size,
    ({} : UserStringHeapBuilder).add "-\x7F" = .ok (1, after) ∧
    Compressed.encodeUnsigned 5 = .ok size ∧
    after.data.toList = [0] ++ (size ++ [0x2D, 0, 0x7F, 0] ++ [1]) := by
  have units : Utf16.encode "-\x7F" = [0x2D, 0x7F] := by decide +kernel
  obtain ⟨size, flag, encoded, -, grown, -, covered⟩ :=
    @add_announces_iff {} _ "-\x7F" 1 rfl
  rw [units] at encoded grown covered
  have announced : flag = 1 := covered.mpr (fun _ => ⟨0x2D, by decide⟩) ⟨0x2D, by decide⟩
  subst announced
  exact ⟨_, size, rfl, encoded, grown⟩

/-- The delete character alone has to be announced and is not. -/
theorem delete_not_announced : ∃ after, MustAnnounce 0x7F ∧
    ({} : UserStringHeapBuilder).add "\x7F" = .ok (1, after) ∧
    after.data = #[0, 3, 0x7F, 0, 0] :=
  ⟨_, by decide, rfl, rfl⟩

end ClrDecompiler.Metadata.UserStringHeapBuilder
