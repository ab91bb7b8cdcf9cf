/-
This file shows that the reader of sequence points finds the declaration that was written.
-/

import ClrDecompiler.Proofs.Bytes.Compressed
import ClrDecompiler.Symbols.Builder
import ClrDecompiler.Symbols.SequencePoint

namespace ClrDecompiler.Symbols

open Compressed Read SequencePoint

/-- The point that covers a declaration on one line. -/
def declarationPoint (document line startColumn endColumn : Nat) : SequencePoint :=
  ⟨0, document, line, startColumn, line, endColumn⟩

/-- A declaration is written only if it has a width. -/
theorem declarationPoints_eq_ok {line startColumn endColumn : Nat} {points : Bytes}
    (written : declarationPoints line startColumn endColumn = .ok points) :
    startColumn < endColumn ∧
      Sequence UnsignedForm [0, 0, 0, endColumn - startColumn, line, startColumn]
        points.toList := by
  rw [declarationPoints] at written
  split at written
  case isTrue => cases written
  case isFalse wide =>
    obtain ⟨encoding, forms, whole⟩ := foldlM_appendUnsigned_eq_ok written
    rw [whole]
    exact ⟨Nat.lt_of_not_le wide, forms⟩

theorem declarationPoints_ne_empty {line startColumn endColumn : Nat} {points : Bytes}
    (written : declarationPoints line startColumn endColumn = .ok points) : points ≠ #[] := by
  obtain ⟨head, others, whole, form, -⟩ := (declarationPoints_eq_ok written).2.of_cons
  have positive := form.length_pos
  rintro rfl
  cases head with
  | nil => cases positive
  | cons => cases whole

/-- A record of three numbers is read as a point in one line. -/
theorem yields_readPoint {document line startColumn width : Nat} (wide : 0 < width)
    {lines columns start column : List UInt8} (noLines : UnsignedForm 0 lines)
    (extent : UnsignedForm width columns) (first : UnsignedForm line start)
    (place : UnsignedForm startColumn column) (rest : List UInt8) :
    (readPoint { document } 0).Yields (lines ++ (columns ++ (start ++ (column ++ rest))))
      (declarationPoint document line startColumn (startColumn + width),
        { document, place := some (line, startColumn), begun := true }) rest := by
  have lineSmall := first.lt
  have columnSmall := place.lt
  have widthSmall := extent.lt
  have near : ¬ UInt32.size ≤ 0 + 0 := by decide
  have visible : ¬ (0 = 0 ∧ (width : Int) = 0) := by omega
  have sameLine : min (line + 0) (UInt32.size - 1) = line :=
    Nat.min_eq_left (by change line + 0 ≤ 4294967295; omega)
  have endRead : columnOf ((startColumn : Int) + (width : Int)) = .ok (startColumn + width) := by
    have inside : 0 ≤ (startColumn : Int) + (width : Int) ∧
        (startColumn : Int) + (width : Int) < UInt32.size := by
      change _ ∧ _ < (4294967296 : Int)
      omega
    rw [columnOf, if_pos inside]
    rfl
  have extentRead : readExtent.Yields (lines ++ (columns ++ (start ++ (column ++ rest))))
      (0, (width : Int)) (start ++ (column ++ rest)) := by
    apply (inverts_compressedUnsigned noLines _).bind
    exact (inverts_compressedUnsigned extent _).bind (yields_pure _ _)
  have startRead : (readStart none).Yields (start ++ (column ++ rest))
      (line, startColumn) rest := by
    apply (inverts_compressedUnsigned first _).bind
    exact (inverts_compressedUnsigned place _).bind (yields_pure _ _)
  rw [readPoint, if_neg near]
  apply extentRead.bind
  dsimp only
  rw [if_neg visible]
  apply startRead.bind
  apply (yields_liftM endRead rest).bind
  rw [sameLine]
  exact yields_pure _ rest

/-- The points of a declaration are read as the one that covers it. -/
theorem decode_declarationPoints {line startColumn endColumn document : Nat} {points : Bytes}
    (written : declarationPoints line startColumn endColumn = .ok points) (known : document ≠ 0) :
    decode points document = .ok [declarationPoint document line startColumn endColumn] := by
  obtain ⟨wide, forms⟩ := declarationPoints_eq_ok written
  obtain ⟨noLocals, _, whole, noLocalsForm, forms⟩ := forms.of_cons
  obtain ⟨noOffset, _, rfl, noOffsetForm, forms⟩ := forms.of_cons
  obtain ⟨noLines, _, rfl, noLinesForm, forms⟩ := forms.of_cons
  obtain ⟨width, _, rfl, widthForm, forms⟩ := forms.of_cons
  obtain ⟨start, _, rfl, startForm, forms⟩ := forms.of_cons
  obtain ⟨column, _, rfl, columnForm, ⟨⟩⟩ := forms.of_cons
  refine Yields.runOn (show (readAll document).Yields _ _ [] from ?_) whole
  apply (inverts_compressedUnsigned noLocalsForm _).bind
  rw [if_neg known]
  apply (yields_pure document _).bind
  apply yields_size
  intro bound large
  have positive := noOffsetForm.length_pos
  obtain ⟨bound, rfl⟩ : ∃ smaller, bound = smaller + 1 :=
    ⟨bound - 1, by rw [List.length_append] at large; omega⟩
  have more (others : List UInt8) : (!(noOffset ++ others).isEmpty) = true := by
    cases noOffset with
    | nil => cases positive
    | cons => rfl
  apply (yields_hasMore _).bind
  rw [more]
  apply (inverts_compressedUnsigned noOffsetForm _).bind
  have begins : ¬ (0 = 0 ∧ false = true) := by decide
  rw [if_neg begins]
  refine (yields_readPoint (Nat.sub_pos_of_lt wide) noLinesForm widthForm startForm columnForm
    []).bind ?_
  have last (bound : Nat) (progress : Progress) : (readRecords bound progress).Yields [] [] [] := by
    cases bound with
    | zero => exact yields_pure [] []
    | succ bound => exact (yields_hasMore []).bind (yields_pure [] [])
  apply (last bound _).bind
  rw [Nat.add_sub_of_le (Nat.le_of_lt wide)]
  exact yields_pure _ []

end ClrDecompiler.Symbols
