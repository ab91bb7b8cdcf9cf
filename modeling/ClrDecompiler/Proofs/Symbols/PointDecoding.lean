/-
This file shows which blobs of sequence points are decoded: exactly those that hold the numbers of
records which give points one after the other. The loop over the records ends on every blob.
-/

import ClrDecompiler.Proofs.Symbols.PointRecord

namespace ClrDecompiler.Symbols.SequencePoint

open Compressed Read

section Locality

theorem local_liftM {α : Type} (outcome : Except Fault α) : (liftM outcome : Read α).Local := by
  cases outcome with
  | error fault => exact local_throw fault
  | ok value => exact local_pure value

theorem local_readStart (place : Option (Nat × Nat)) : (readStart place).Local := by
  cases place with
  | none =>
    exact local_compressedUnsigned.bind fun _ => local_compressedUnsigned.bind fun _ => local_pure _
  | some before =>
    exact local_compressedSigned.bind fun _ => local_compressedSigned.bind fun _ =>
      (local_liftM _).bind fun _ => (local_liftM _).bind fun _ => local_pure _

theorem local_readExtent : readExtent.Local := by
  refine local_compressedUnsigned.bind fun lines => ?_
  split
  · exact local_compressedUnsigned.bind fun _ => local_pure _
  · exact local_compressedSigned.bind fun _ => local_pure _

theorem local_readPoint (progress : Progress) (advance : Nat) :
    (readPoint progress advance).Local := by
  rw [readPoint]
  split
  · exact fun input => ⟨_, _, (behaves_throw _ input).bind_error⟩
  · refine local_readExtent.bind fun extent => ?_
    dsimp only
    split
    · exact local_pure _
    · exact (local_readStart _).bind fun _ => (local_liftM _).bind fun _ => local_pure _

/-- A record is read from behind the position only. -/
theorem local_readRecord (progress : Progress) : (readRecord progress).Local := by
  refine local_compressedUnsigned.bind fun advance => ?_
  split
  · exact local_compressedUnsigned.bind fun _ => local_pure _
  · exact (local_readPoint progress advance).bind fun _ => local_pure _

end Locality

/-- A record takes a byte at least. -/
theorem length_pos_of_readRecord {progress : Progress} {input : List UInt8}
    {found : Option SequencePoint × Progress} {used : Nat}
    (behaves : (readRecord progress).Behaves input (.ok found) used) : 0 < used := by
  have whole : input.toArray.toList = [] ++ input := rfl
  have run := behaves.2 input.toArray [] whole
  obtain ⟨encoding, rest, -, ⟨record, -, written⟩, taken⟩ :=
    (recognizes_readRecord progress whole found _).mp run
  rw [Nat.add_left_cancel taken]
  exact Record.length_pos written

/-- In front of an input the loop has one outcome, with whatever bound that is not below the size
of the input. It succeeds only at the end of the input. -/
theorem readRecords_behaves (progress : Progress) (input : List UInt8) :
    ∃ outcome used, (∀ points, outcome = .ok points → used = input.length) ∧
      ∀ bound, input.length ≤ bound → (readRecords bound progress).Behaves input outcome used := by
  induction size : input.length using Nat.strongRecOn generalizing progress input with
  | _ size ih =>
    subst size
    by_cases empty : input = []
    · subst empty
      refine ⟨.ok [], 0, fun _ _ => rfl, fun bound _ => ?_⟩
      cases bound with
      | zero => exact behaves_pure [] []
      | succ bound =>
        rw [readRecords_succ]
        exact (yields_hasMore []).ahead_behaves (behaves_pure [] [])
    have filled : 0 < input.length := List.length_pos_iff.mpr empty
    -- A turn that fails or succeeds does so with every bound.
    have turn {outcome : Except Fault (List SequencePoint)} {used : Nat}
        (behaves : ∀ bound, input.length ≤ bound + 1 → (do
          let found ← readRecord progress
          return found.1.toList ++ (← readRecords bound found.2) : Read _).Behaves
            input outcome used) :
        ∀ bound, input.length ≤ bound →
          (readRecords bound progress).Behaves input outcome used := by
      intro bound enough
      obtain ⟨bound, rfl⟩ : ∃ smaller, bound = smaller + 1 := ⟨bound - 1, by omega⟩
      rw [readRecords_succ]
      refine (yields_hasMore input).ahead_behaves ?_
      have more : (!input.isEmpty) = true := by simp [empty]
      rw [more]
      exact behaves bound enough
    obtain ⟨fault | ⟨shown, after⟩, used, behaves⟩ := local_readRecord progress input
    · refine ⟨.error fault, used, fun points success => ?_, turn fun bound _ => behaves.bind_error⟩
      cases success
    · have positive := length_pos_of_readRecord behaves
      have inside := behaves.1
      have shorter : (input.drop used).length < input.length := by
        rw [List.length_drop]
        omega
      obtain ⟨outcome, further, whole, later⟩ := ih _ shorter after (input.drop used) rfl
      have rest (bound : Nat) (enough : input.length ≤ bound + 1) :
          (readRecords bound after).Behaves (input.drop used) outcome further :=
        later bound (by omega)
      cases outcome with
      | error fault =>
        refine ⟨.error fault, used + further, fun points success => ?_,
          turn fun bound enough => behaves.bind (rest bound enough).bind_error⟩
        cases success
      | ok points =>
        have joined (bound : Nat) (enough : input.length ≤ bound + 1) : (do
            return shown.toList ++ (← readRecords bound after) : Read _).Behaves
              (input.drop used) (.ok (shown.toList ++ points)) (further + 0) :=
          (rest bound enough).bind (behaves_pure _ _)
        refine ⟨.ok (shown.toList ++ points), used + (further + 0), fun _ _ => ?_,
          turn fun bound enough => behaves.bind (joined bound enough)⟩
        rw [whole points rfl, List.length_drop]
        omega

/-- Records that trace points are read as these. -/
theorem Traces.yields {progress : Progress} {records : List Record} {points : List SequencePoint}
    (traces : Traces progress records points) {encoding : List UInt8}
    (written : Sequence Number.Form (records.flatMap Record.numbers) encoding) {bound : Nat}
    (enough : encoding.length ≤ bound) :
    (readRecords bound progress).Yields encoding points [] := by
  induction traces generalizing encoding bound with
  | nil =>
    cases sequence_nil_iff.mp written
    cases bound with
    | zero => exact yields_pure [] []
    | succ bound =>
      rw [readRecords_succ]
      exact (yields_hasMore []).bind (yields_pure [] [])
  | @cons progress after record records shown points gives later ih =>
    rw [List.flatMap_cons, sequence_append_iff] at written
    obtain ⟨head, tail, rfl, first, others⟩ := written
    have positive := Record.length_pos first
    rw [List.length_append] at enough
    obtain ⟨bound, rfl⟩ : ∃ smaller, bound = smaller + 1 := ⟨bound - 1, by omega⟩
    have more : (!(head ++ tail).isEmpty) = true := by
      cases head with
      | nil => cases positive
      | cons => rfl
    have turn : (readRecord progress).Yields (head ++ tail) (shown, after) tail :=
      (recognizes_readRecord progress).inverts ⟨record, gives, first⟩ tail
    rw [readRecords_succ]
    apply (yields_hasMore _).bind
    rw [more]
    exact turn.bind ((ih others (by omega)).bind (yields_pure _ []))

/-- What is read as points are records that trace them. -/
theorem traces_of_readRecords {data : Bytes} {before input : List UInt8}
    (whole : data.toList = before ++ input) {bound : Nat} (enough : input.length ≤ bound)
    {progress : Progress} {points : List SequencePoint} {after : Nat}
    (run : (readRecords bound progress).runAt data before.length = (.ok points, after)) :
    ∃ records, Sequence Number.Form (records.flatMap Record.numbers) input ∧
      Traces progress records points := by
  induction bound generalizing before input progress points after with
  | zero =>
    cases List.length_eq_zero_iff.mp (Nat.le_zero.mp enough)
    cases run
    exact ⟨[], .nil, .nil⟩
  | succ bound ih =>
    have looked : Read.hasMore.Yields ([] ++ input) (!input.isEmpty) input := yields_hasMore input
    rw [readRecords_succ, looked.runAt_next whole, List.append_nil] at run
    by_cases empty : input = []
    · subst empty
      cases run
      exact ⟨[], .nil, .nil⟩
    have more : (!(!input.isEmpty)) = false := by simp [empty]
    simp only [more, Bool.false_eq_true, if_false] at run
    obtain ⟨⟨shown, reached⟩, middle, first, run⟩ := of_runAt_bind run
    obtain ⟨head, rest, rfl, ⟨record, gives, written⟩, rfl⟩ :=
      (recognizes_readRecord progress whole _ _).mp first
    obtain ⟨later, stop, run, joined⟩ := of_runAt_bind run
    cases joined
    have positive := Record.length_pos written
    rw [List.length_append] at enough
    rw [← List.length_append] at run
    rw [← List.append_assoc] at whole
    obtain ⟨records, others, traces⟩ := ih whole (by omega) run
    refine ⟨record :: records, ?_, .cons gives traces⟩
    exact sequence_append_iff.mpr ⟨head, rest, rfl, written, others⟩

/-- The first document of a method. -/
def readDocument (row : Nat) : Read Nat :=
  if row = 0 then Read.compressedUnsigned else pure row

theorem readAll_eq (row : Nat) : readAll row = (do
    let _ ← Read.compressedUnsigned
    let document ← readDocument row
    readRecords (← Read.size) { document }) := by
  refine congrArg _ (funext fun _ => ?_)
  rw [readDocument]
  split <;> rfl

/-- The first document is read from the blob unless the row of the method names it. -/
theorem recognizes_readDocument (row : Nat) :
    (readDocument row).Recognizes fun _ document encoding => (row = 0 ∨ row = document) ∧
      Sequence Number.Form (if row = 0 then [.unsigned document] else []) encoding := by
  rw [readDocument]
  split
  · next unnamed =>
    refine recognizes_compressedUnsigned.congr fun place document encoding => ?_
    simp only [unnamed, true_or, true_and, sequence_cons_iff, sequence_nil_iff]
    constructor
    · intro form
      exact ⟨encoding, [], (List.append_nil _).symm, form, rfl⟩
    · rintro ⟨head, _, rfl, form, rfl⟩
      rw [List.append_nil]
      exact form
  · next named =>
    refine (recognizes_pure row).congr fun place document encoding => ?_
    simp only [named, false_or, sequence_nil_iff]

/-- A blob is decoded exactly if it holds a signature, a document unless the row of the method
names one, and records that give the points one after the other. -/
theorem decode_eq_ok_iff {data : Bytes} {row : Nat} {points : List SequencePoint} :
    decode data row = .ok points ↔ ∃ signature document records, (row = 0 ∨ row = document) ∧
      Sequence Number.Form (blobNumbers row signature document records) data.toList ∧
        Traces { document } records points := by
  constructor
  · intro run
    have whole : data.toList = [] ++ data.toList := rfl
    obtain ⟨after, run⟩ : ∃ after, (readAll row).runAt data ([] : List UInt8).length =
        (.ok points, after) := ⟨_, Prod.ext run rfl⟩
    rw [readAll_eq] at run
    obtain ⟨signature, _, first, run⟩ := of_runAt_bind run
    obtain ⟨head, input, split, form, rfl⟩ := (recognizes_compressedUnsigned whole _ _).mp first
    replace whole : data.toList = ([] ++ head) ++ input := split
    rw [← List.length_append] at run
    obtain ⟨document, _, second, run⟩ := of_runAt_bind run
    obtain ⟨name, input, rfl, ⟨named, written⟩, rfl⟩ :=
      (recognizes_readDocument row whole _ _).mp second
    rw [← List.append_assoc] at whole
    rw [← List.length_append] at run
    obtain ⟨_, _, ⟨⟩, run⟩ := of_runAt_bind run
    have enough : input.length ≤ data.size := by
      rw [← Array.length_toList, whole, List.length_append]
      exact Nat.le_add_left _ _
    obtain ⟨records, others, traces⟩ := traces_of_readRecords whole enough run
    refine ⟨signature, document, records, named, ?_, traces⟩
    rw [split, blobNumbers]
    exact .cons (form : Number.Form (.unsigned signature) head)
      (sequence_append_iff.mpr ⟨name, input, rfl, written, others⟩)
  · rintro ⟨signature, document, records, named, written, traces⟩
    rw [blobNumbers] at written
    obtain ⟨head, tail, whole, form, written⟩ := sequence_cons_iff.mp written
    obtain ⟨name, input, rfl, first, others⟩ := sequence_append_iff.mp written
    refine Yields.runOn (show (readAll row).Yields _ _ [] from ?_) whole
    rw [readAll_eq]
    apply (inverts_compressedUnsigned form _).bind
    apply ((recognizes_readDocument row).inverts ⟨named, first⟩ input).bind
    exact yields_size fun bound enough => traces.yields others enough

end ClrDecompiler.Symbols.SequencePoint
