/-
This file shows that decoded sequence points stand in the order of the code: a record that does not
advance gives no point behind the first one.
-/

import ClrDecompiler.Proofs.Symbols.PointDecoding

namespace ClrDecompiler.Symbols.SequencePoint

open Compressed Read

/-- A point that names no place has the hidden line twice and no columns. -/
def NamesNoPlace (point : SequencePoint) : Prop :=
  point.startLine = hiddenLine ∧ point.endLine = hiddenLine ∧
    point.startColumn = 0 ∧ point.endColumn = 0

instance : DecidablePred NamesNoPlace :=
  fun _ => inferInstanceAs (Decidable (_ ∧ _))

/-- The offsets of points are the sums of the advances up to their records. -/
def offsetsFrom : Nat → List Record → List Nat
  | _, [] => []
  | offset, .document _ :: records => offsetsFrom offset records
  | offset, .point advance _ :: records =>
    (offset + advance) :: offsetsFrom (offset + advance) records

theorem Start.Leads.line_lt {place : Option (Nat × Nat)} {start : Start} {line column : Nat}
    (leads : start.Leads place line column) : line < UInt32.size := by
  cases leads <;> assumption

/-- What a record does: only a point moves the offset, and only the first one may stay at it. -/
inductive Record.Moves (progress : Progress) : Record → Option SequencePoint → Progress → Prop where
  | document {row : Nat} {after : Progress} (kept : after.offset = progress.offset)
      (begun : after.begun = progress.begun) : Moves progress (.document row) none after
  | point {advance : Nat} {shape : Shape} {point : SequencePoint} {after : Progress}
      (here : point.offset = progress.offset + advance)
      (moved : after.offset = point.offset) (begun : after.begun = true)
      (later : progress.begun = true → progress.offset < point.offset)
      (placed : point.NamesNoPlace ∨ point.startLine ≤ point.endLine) :
      Moves progress (.point advance shape) (some point) after

/-- What a record gives is a move of the progress. -/
theorem Record.Gives.moves {progress after : Progress} {record : Record}
    {shown : Option SequencePoint} (gives : record.Gives progress shown after) :
    record.Moves progress shown after := by
  cases gives with
  | document begun => exact .document rfl rfl
  | @point advance shape point _ moves near shows =>
    have later (begun : progress.begun = true) : progress.offset < progress.offset + advance :=
      Nat.lt_add_of_pos_right (Nat.pos_of_ne_zero (moves begun))
    cases shows with
    | hidden => exact .point rfl rfl rfl later (.inl ⟨rfl, rfl, rfl, rfl⟩)
    | visible wide shows =>
      cases shows with
      | visible leads ends endFits =>
        have fits := leads.line_lt
        refine .point rfl rfl rfl later (.inr ?_)
        exact Nat.le_min.mpr ⟨Nat.le_add_right _ _, Nat.le_sub_one_of_lt fits⟩

section

variable {progress : Progress} {records : List Record} {points : List SequencePoint}

/-- Behind a point the offsets only grow. -/
theorem Traces.increasing (traces : Traces progress records points) :
    (progress.begun = true → ∀ point ∈ points, progress.offset < point.offset) ∧
      points.Pairwise fun earlier later => earlier.offset < later.offset := by
  induction traces with
  | nil => exact ⟨fun _ _ member => absurd member List.not_mem_nil, .nil⟩
  | @cons progress after record records shown points gives later ih =>
    obtain ⟨beyond, ordered⟩ := ih
    cases gives.moves with
    | document kept begun =>
      rw [kept, begun] at beyond
      exact ⟨beyond, ordered⟩
    | @point advance shape point _ here moved begun past =>
      have rest := beyond begun
      rw [moved] at rest
      refine ⟨fun started => ?_, .cons rest ordered⟩
      refine List.forall_mem_cons.mpr ⟨past started, fun other member => ?_⟩
      exact Nat.lt_trans (past started) (rest other member)

/-- A point that names a place does not end above its start. -/
theorem Traces.placed (traces : Traces progress records points) :
    ∀ point ∈ points, point.NamesNoPlace ∨ point.startLine ≤ point.endLine := by
  induction traces with
  | nil => exact fun _ member => absurd member List.not_mem_nil
  | cons gives later ih =>
    cases gives.moves with
    | document => exact ih
    | point _ _ _ _ placed => exact List.forall_mem_cons.mpr ⟨placed, ih⟩

/-- The points stand in the order of their records, each where the advances so far lead. -/
theorem Traces.offsets_eq (traces : Traces progress records points) :
    points.map (·.offset) = offsetsFrom progress.offset records := by
  induction traces with
  | nil => rfl
  | cons gives later ih =>
    cases gives.moves with
    | document kept =>
      rw [kept] at ih
      exact ih
    | point here moved =>
      rw [moved, here] at ih
      rw [offsetsFrom, ← ih, ← here]
      rfl

end

/-- Decoded points have increasing offsets, each of them is hidden or ends on no earlier line than
it starts, and they are what the records of the blob give, one after the other. The loop over the
records ends: from every place of the data on it has one outcome, whatever bound it is given, and
where it succeeds it has come to the end of the data. -/
theorem decode_in_order (data : Bytes) (row : Nat) :
    (∀ points, decode data row = .ok points →
      (points.Pairwise fun earlier later => earlier.offset < later.offset) ∧
      (∀ point ∈ points, point.NamesNoPlace ∨ point.startLine ≤ point.endLine) ∧
      ∃ signature document records, (row = 0 ∨ row = document) ∧
        Sequence Number.Form (blobNumbers row signature document records) data.toList ∧
        Traces { document } records points ∧ points.map (·.offset) = offsetsFrom 0 records) ∧
    ∀ (progress : Progress) (position : Nat), position ≤ data.size →
      ∃ outcome after, after ≤ data.size ∧
        (∀ bound, data.size - position ≤ bound →
          (readRecords bound progress).runAt data position = (outcome, after)) ∧
        ∀ points, outcome = .ok points → after = data.size := by
  constructor
  · intro points run
    obtain ⟨signature, document, records, named, written, traces⟩ := decode_eq_ok_iff.mp run
    exact ⟨traces.increasing.2, traces.placed, signature, document, records, named, written,
      traces, traces.offsets_eq⟩
  · intro progress position inside
    obtain ⟨outcome, used, whole, behaves⟩ :=
      readRecords_behaves progress (data.toList.drop position)
    have size : (data.toList.drop position).length = data.size - position := by
      rw [List.length_drop, Array.length_toList]
    have split : data.toList = data.toList.take position ++ data.toList.drop position :=
      (List.take_append_drop _ _).symm
    have start : (data.toList.take position).length = position := List.length_take_of_le inside
    refine ⟨outcome, position + used, ?_, fun bound enough => ?_, fun points success => ?_⟩
    · have taken := (behaves _ (Nat.le_refl _)).1
      omega
    · have run := (behaves bound (by omega)).2 data _ split
      rw [start] at run
      exact run
    · have taken := whole points success
      omega

/-- A hidden point in the second document and a visible one in the first. -/
def sampleBlob : Bytes :=
  #[0x00, 0x02, 0x00, 0x00, 0x00, 0x00, 0x01, 0x04, 0x00, 0x01, 0x03, 0x01]

theorem decode_in_order_sample :
    decode sampleBlob 0 = .ok [hidden 0 2, ⟨4, 1, 3, 1, 3, 2⟩] ∧
      [hidden 0 2, ⟨4, 1, 3, 1, 3, 2⟩].Pairwise
        (fun earlier later => earlier.offset < later.offset) ∧
      ∃ outcome after, after ≤ sampleBlob.size ∧
        (∀ bound, sampleBlob.size - 2 ≤ bound →
          (readRecords bound { document := 2 }).runAt sampleBlob 2 = (outcome, after)) ∧
        ∀ points, outcome = .ok points → after = sampleBlob.size := by
  have run : decode sampleBlob 0 = .ok [hidden 0 2, ⟨4, 1, 3, 1, 3, 2⟩] := by decide +kernel
  obtain ⟨decoded, ends⟩ := decode_in_order sampleBlob 0
  exact ⟨run, (decoded _ run).1, ends { document := 2 } 2 (by decide)⟩

end ClrDecompiler.Symbols.SequencePoint
