/-
This file shows that the indexes of a table stream are exactly as wide as they have to be. The
widths are computed from numbers of binary digits; the format gives them by numbers of rows.
-/

import ClrDecompiler.Proofs.Metadata.CodedIndex
import Mathlib.Data.Nat.Log

namespace ClrDecompiler.Metadata

/-- The length of a number is the least count of digits that holds it. -/
theorem bitLength_le_iff {value bits : Nat} : bitLength value ≤ bits ↔ value < 2 ^ bits := by
  rw [bitLength]
  split
  case isTrue zero => exact iff_of_true (Nat.zero_le _) (zero ▸ Nat.two_pow_pos _)
  case isFalse positive => exact Nat.succ_le_iff.trans (Nat.log2_lt positive)

theorem foldl_max_le_iff {values : List Nat} {start bound : Nat} :
    values.foldl max start ≤ bound ↔ start ≤ bound ∧ ∀ value ∈ values, value ≤ bound := by
  induction values generalizing start with
  | nil => simp
  | cons value rest ih => rw [List.foldl_cons, ih, Nat.max_le, List.forall_mem_cons, and_assoc]

/-- The tags have as many bits as it takes to number the candidates. -/
theorem CodedKind.tagBits_eq_clog (kind : CodedKind) :
    kind.tagBits = Nat.clog 2 kind.candidates.length := by
  have some : 0 < kind.candidates.length := by cases kind <;> decide
  apply eq_of_forall_ge_iff
  intro bits
  rw [tagBits, bitLength_le_iff, Nat.clog_le_iff_le_pow (by decide)]
  omega

/-- The row and the tag of a coded index side by side. -/
theorem CodedKind.shiftLeft_or {kind : CodedKind} {table : TableId} {tag : Nat}
    (listed : kind.candidates[tag]? = some table) (row : Nat) :
    row <<< kind.tagBits ||| tag = row * 2 ^ kind.tagBits + tag := by
  rw [Nat.shiftLeft_eq, Nat.mul_comm, ← Nat.two_pow_add_eq_or_of_lt (tag_lt listed)]

namespace TableSizes

variable (sizes : TableSizes)

/-- The width of the rows of a table is the least one that holds their number. -/
theorem rowBits_le_iff {table : TableId} {bits : Nat} (positive : 0 < bits) :
    sizes.rowBits table ≤ bits ↔ sizes.rowCount table < 2 ^ bits := by
  rw [rowBits, Nat.max_le, bitLength_le_iff, and_iff_right (Nat.succ_le_of_lt positive)]

/-- A row number is narrow exactly if 16 bits hold the count of the rows. -/
theorem isWideRow_eq_false_iff {table : TableId} :
    sizes.isWideRow table = false ↔ sizes.rowCount table < 2 ^ 16 := by
  rw [isWideRow, decide_eq_false_iff_not]
  omega

/-- A coded index is narrow if the bits of the tag leave enough of 16 bits for every row. -/
theorem isWideCoded_eq_false_iff {kind : CodedKind} :
    sizes.isWideCoded kind = false ↔
      ∀ table ∈ kind.candidates, sizes.rowCount table < 2 ^ (16 - kind.tagBits) := by
  have room := kind.tagBits_le
  have positive : 0 < 16 - kind.tagBits := by omega
  have split : sizes.codedBits kind ≤ 16 ↔
      (kind.candidates.map sizes.rowBits).foldl max 0 ≤ 16 - kind.tagBits := by
    rw [codedBits]
    omega
  rw [isWideCoded, decide_eq_false_iff_not, Nat.not_lt, split, foldl_max_le_iff,
    and_iff_right (Nat.zero_le _), List.forall_mem_map]
  simp only [sizes.rowBits_le_iff positive]

/-- The largest row of a table decides whether all of them fit. -/
theorem forall_row_packed_lt_iff {kind : CodedKind} {table : TableId} {tag count : Nat}
    (listed : kind.candidates[tag]? = some table) :
    (∀ row ≤ count, row <<< kind.tagBits ||| tag < 2 ^ 16) ↔ count < 2 ^ (16 - kind.tagBits) := by
  have small := CodedKind.tag_lt listed
  have split : 2 ^ (16 - kind.tagBits) * 2 ^ kind.tagBits = 2 ^ 16 := by
    rw [← Nat.pow_add, Nat.sub_add_cancel (Nat.le_trans kind.tagBits_le (by decide))]
  simp only [CodedKind.shiftLeft_or listed, ← split]
  constructor
  · intro fits
    exact Nat.lt_of_mul_lt_mul_right (Nat.lt_of_add_right_lt (fits count (Nat.le_refl _)))
  · intro fits row existing
    have next := Nat.mul_le_mul_right (2 ^ kind.tagBits)
      (Nat.succ_le_of_lt (Nat.lt_of_le_of_lt existing fits))
    rw [Nat.succ_mul] at next
    omega

/-- Every row that a table has is written, whatever the width of the indexes into the table. -/
theorem appendIndex_row {table : TableId} {row : UInt32} (data : Bytes)
    (existing : row.toNat ≤ sizes.rowCount table) :
    ∃ after, data.appendIndex row (sizes.isWideRow table) = .ok after := by
  rw [Bytes.appendIndex]
  cases width : sizes.isWideRow table with
  | true => exact ⟨_, rfl⟩
  | false =>
    have few := sizes.isWideRow_eq_false_iff.mp width
    exact ⟨_, if_pos (Nat.lt_of_le_of_lt existing few)⟩

/-- The coded index of an existing row fits its width. -/
theorem appendIndex_encode {kind : CodedKind} {table : TableId} {row value : UInt32} (data : Bytes)
    (existing : row.toNat ≤ sizes.rowCount table) (encoded : kind.encode table row = .ok value) :
    ∃ after, data.appendIndex value (sizes.isWideCoded kind) = .ok after := by
  rw [Bytes.appendIndex]
  cases width : sizes.isWideCoded kind with
  | true => exact ⟨_, rfl⟩
  | false =>
    obtain ⟨tag, tagged, same⟩ := CodedKind.encode_eq_ok_iff.mp encoded
    have listed := CodedKind.getElem?_of_tag? tagged
    have few := sizes.isWideCoded_eq_false_iff.mp width table (List.mem_of_getElem? listed)
    have small := (forall_row_packed_lt_iff listed).mpr few row.toNat existing
    rw [CodedKind.shiftLeft_or listed] at small
    have fits : value.toNat < 0x10000 := by
      rw [same]
      exact Nat.lt_of_le_of_lt (Nat.mod_le _ _) small
    exact ⟨_, if_pos fits⟩

/-- The indexes into a table, or into the tables of a kind, take two bytes exactly if the stored
number of every row fits into them. This is the rule of the format, in which the tables have to
have fewer rows than the bits beside the tag can number; and no row that exists is refused. -/
theorem index_widths_exact :
    (∀ kind,
      (sizes.isWideCoded kind = false ↔
        ∀ tag table, kind.candidates[tag]? = some table → ∀ row ≤ sizes.rowCount table,
          row <<< kind.tagBits ||| tag < 2 ^ 16) ∧
      (sizes.isWideCoded kind = false ↔
        ∀ table ∈ kind.candidates,
          sizes.rowCount table < 2 ^ (16 - Nat.clog 2 kind.candidates.length))) ∧
    (∀ table,
      (sizes.isWideRow table = false ↔ ∀ row ≤ sizes.rowCount table, row < 2 ^ 16) ∧
      (sizes.isWideRow table = false ↔ sizes.rowCount table < 2 ^ 16)) ∧
    ∀ (data : Bytes) (table : TableId) (row : UInt32), row.toNat ≤ sizes.rowCount table →
      (∃ after, data.appendIndex row (sizes.isWideRow table) = .ok after) ∧
      ∀ kind, table ∈ kind.candidates → ∃ value, kind.encode table row = .ok value ∧
        ∃ after, data.appendIndex value (sizes.isWideCoded kind) = .ok after := by
  refine ⟨?_, ?_, ?_⟩
  · intro kind
    rw [isWideCoded_eq_false_iff, ← kind.tagBits_eq_clog]
    refine ⟨?_, Iff.rfl⟩
    constructor
    · intro few tag table listed
      exact (forall_row_packed_lt_iff listed).mpr (few table (List.mem_of_getElem? listed))
    · intro fits table member
      obtain ⟨tag, listed⟩ := List.mem_iff_getElem?.mp member
      exact (forall_row_packed_lt_iff listed).mp (fits tag table listed)
  · intro table
    refine ⟨sizes.isWideRow_eq_false_iff.trans ?_, sizes.isWideRow_eq_false_iff⟩
    exact ⟨fun few row existing => Nat.lt_of_le_of_lt existing few,
      fun fits => fits _ (Nat.le_refl _)⟩
  · intro data table row existing
    refine ⟨sizes.appendIndex_row data existing, ?_⟩
    intro kind member
    obtain ⟨value, encoded⟩ := kind.exists_encode member row
    exact ⟨value, encoded, sizes.appendIndex_encode data existing encoded⟩

/-- Sizes of a stream that has nothing but references to types. -/
def referring (count : Nat) : TableSizes :=
  ofCounts #[0, count] 0

/-- Two bits of the tag leave room for 16383 rows. The last of them is written in two bytes. -/
theorem index_widths_exact_boundary :
    (referring 0x3FFF).isWideCoded .typeDefOrRef = false ∧
      (referring 0x4000).isWideCoded .typeDefOrRef = true ∧
      ∃ value, CodedKind.typeDefOrRef.encode .typeRef 0x3FFF = .ok value ∧
        ∃ after, Bytes.appendIndex #[] value ((referring 0x3FFF).isWideCoded .typeDefOrRef) =
          .ok after := by
  refine ⟨by decide, by decide, ?_⟩
  exact (((referring 0x3FFF).index_widths_exact).2.2 #[] .typeRef 0x3FFF (by decide)).2
    .typeDefOrRef (by decide)

end TableSizes

end ClrDecompiler.Metadata
