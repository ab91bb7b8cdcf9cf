/-
This file compares the tokens of decoded references with the tables and rows that the references
name. A token has 24 bits for a row. A larger row of a compressed token is carried over into the
table, and one of a coded index loses its high bits; no reference is refused for its row.
-/

import ClrDecompiler.Proofs.Bytes.CompressedNumber
import ClrDecompiler.Proofs.Metadata.CodedIndex
import ClrDecompiler.Proofs.Metadata.Token
import ClrDecompiler.Proofs.Signature.Form

namespace ClrDecompiler

open Metadata Signature

namespace Read

variable {data : Bytes} {position after : Nat}

/-- A compressed number has 29 bits, wherever it is read. -/
theorem compressedUnsigned_lt {value : Nat}
    (run : Read.compressedUnsigned.runAt data position = (.ok value, after)) :
    value < 0x20000000 := by
  have inside : position ≤ data.size := by
    obtain ⟨lead, middle, first, -⟩ := of_runAt_bind run
    exact Nat.le_of_lt (word8_eq_ok first).1
  have place : (data.toList.take position).length = position :=
    List.length_take_of_le (Array.length_toList ▸ inside)
  rw [← place] at run
  obtain ⟨encoding, rest, -, form, -⟩ :=
    (recognizes_compressedUnsigned (List.take_append_drop position data.toList).symm _ _).mp run
  exact form.lt

/-- The row is added to the first token of the table. -/
theorem runAt_compressedToken {value : Nat}
    (number : Read.compressedUnsigned.runAt data position = (.ok value, after)) :
    Read.compressedToken.runAt data position = match TypeSig.tokenTables[value % 4]? with
      | some table => (.ok ⟨UInt32.ofNat (table.number * 0x1000000 + value / 4)⟩, after)
      | none => (.error (.malformed (.compressedToken value)), after) := by
  rw [Read.compressedToken, runAt_bind, number]
  have small : value % 4 < 4 := Nat.mod_lt _ (by decide)
  simp only [UInt32.ofNat_add]
  generalize value % 4 = tag at small ⊢
  match tag, small with
  | 0, _ => rfl
  | 1, _ => rfl
  | 2, _ => rfl
  | 3, _ => rfl

end Read

namespace Metadata

/-- The token leads to this row of this table. -/
def Token.LeadsTo (token : Token) (table : TableId) (row : Nat) : Prop :=
  token.table.toNat = table.number ∧ token.row.toNat = row

instance (token : Token) (table : TableId) (row : Nat) : Decidable (token.LeadsTo table row) :=
  inferInstanceAs (Decidable (_ ∧ _))

/-- A token that is the sum of a table's first token and a row. -/
theorem Token.parts_of_sum (table : TableId) {row : Nat} (small : row < 0x8000000) :
    let token : Token := ⟨UInt32.ofNat (table.number * 0x1000000 + row)⟩
    token.table.toNat = table.number + row / 0x1000000 ∧ token.row.toNat = row % 0x1000000 := by
  intro token
  have number : table.number < 64 := table.number_lt
  have value : token.value.toNat = table.number * 0x1000000 + row :=
    UInt32.toNat_ofNat_of_lt' (by change _ < 4294967296; omega)
  rw [token.toNat_table, token.toNat_row, value]
  omega

/-- The token of a decoded index has the low bits of the row. -/
theorem CodedIndex.token_eq_ofRow (index : CodedIndex) :
    index.token = Token.ofRow index.table (index.row.toNat % 0x1000000) := by
  have low : index.row &&& 0x00FFFFFF =
      UInt32.ofNat (index.row.toNat % 0x1000000) &&& 0x00FFFFFF := by
    apply UInt32.toNat_inj.mp
    rw [UInt32.toNat_and, UInt32.toNat_and, UInt32.toNat_ofNat_of_lt'
      (Nat.lt_of_le_of_lt (Nat.mod_le _ _) index.row.toNat_lt)]
    change _ &&& (2 ^ 24 - 1) = _ &&& (2 ^ 24 - 1)
    rw [Nat.and_two_pow_sub_one_eq_mod, Nat.and_two_pow_sub_one_eq_mod, Nat.mod_mod]
  rw [CodedIndex.token, Token.ofRow, Token.ofParts, Token.ofParts, low]

/-- The token of a coded index keeps the table and the low bits of the row. -/
theorem CodedIndex.parts_of_token (index : CodedIndex) :
    index.token.table.toNat = index.table.number ∧
      index.token.row.toNat = index.row.toNat % 0x1000000 := by
  have fits : index.row.toNat % 0x1000000 < 0x1000000 := Nat.mod_lt _ (by decide)
  rw [index.token_eq_ofRow]
  exact ⟨eq_of_beq (Token.ofRow_pointsInto fits), Token.ofRow_row fits⟩

/-- The token of a compressed reference is the sum of the table's first token and the row. -/
theorem parts_of_compressedToken {data : Bytes} {position after : Nat} {token : Token}
    (run : Read.compressedToken.runAt data position = (.ok token, after)) :
    ∃ value table, Read.compressedUnsigned.runAt data position = (.ok value, after) ∧
      TypeSig.tokenTables[value % 4]? = some table ∧
      token.table.toNat = table.number + value / 4 / 2 ^ 24 ∧
      token.row.toNat = value / 4 % 2 ^ 24 := by
  obtain ⟨value, middle, number, -⟩ := Read.of_runAt_bind run
  have small := Read.compressedUnsigned_lt number
  rw [Read.runAt_compressedToken number] at run
  cases tagged : TypeSig.tokenTables[value % 4]? with
  | none =>
    rw [tagged] at run
    cases run
  | some table =>
    rw [tagged] at run
    cases run
    have fits : value / 4 < 0x8000000 := by omega
    exact ⟨value, table, number, tagged, Token.parts_of_sum table fits⟩

/-- A compressed number is a token unless its tag is the fourth one. -/
theorem exists_compressedToken_iff {data : Bytes} {position after value : Nat}
    (number : Read.compressedUnsigned.runAt data position = (.ok value, after)) :
    (∃ token, Read.compressedToken.runAt data position = (.ok token, after)) ↔ value % 4 < 3 := by
  have outside : ¬ value % 4 < 3 ↔ TypeSig.tokenTables.length ≤ value % 4 := Nat.not_lt
  rw [Read.runAt_compressedToken number, ← not_iff_not, outside, ← List.getElem?_eq_none_iff]
  cases TypeSig.tokenTables[value % 4]? <;> simp

theorem CodedKind.exists_decode_iff {kind : CodedKind} {raw : UInt32} :
    (∃ index, kind.decode raw = .ok index) ↔
      raw.toNat % 2 ^ kind.tagBits < kind.candidates.length := by
  rw [← not_iff_not, Nat.not_lt, ← CodedKind.decode_eq_error_iff]
  cases kind.decode raw <;> simp

/-- A reference is decoded to a token of the row that it names exactly if the row has up to 24
bits. A larger row of a compressed token is carried over into the number of the table, and one of
a coded index keeps its low bits. The number of a compressed token is refused for its tag alone,
and so is the value of a coded index. -/
theorem decoded_references_exact_iff (data : Bytes) (position : Nat) (kind : CodedKind)
    (raw : UInt32) :
    (∀ token after, Read.compressedToken.runAt data position = (.ok token, after) →
      ∃ value table, Read.compressedUnsigned.runAt data position = (.ok value, after) ∧
        TypeSig.tokenTables[value % 4]? = some table ∧
        token.table.toNat = table.number + value / 4 / 2 ^ 24 ∧
        token.row.toNat = value / 4 % 2 ^ 24 ∧
        (token.LeadsTo table (value / 4) ↔ value / 4 < 2 ^ 24)) ∧
    (∀ value after, Read.compressedUnsigned.runAt data position = (.ok value, after) →
      ((∃ token, Read.compressedToken.runAt data position = (.ok token, after)) ↔ value % 4 < 3)) ∧
    (∀ index, kind.decode raw = .ok index →
      kind.candidates[raw.toNat % 2 ^ kind.tagBits]? = some index.table ∧
      index.row.toNat = raw.toNat / 2 ^ kind.tagBits ∧
      index.token.table.toNat = index.table.number ∧
      index.token.row.toNat = index.row.toNat % 2 ^ 24 ∧
      (index.token.LeadsTo index.table index.row.toNat ↔ index.row.toNat < 2 ^ 24)) ∧
    ((∃ index, kind.decode raw = .ok index) ↔
      raw.toNat % 2 ^ kind.tagBits < kind.candidates.length) := by
  refine ⟨?_, ?_, ?_, CodedKind.exists_decode_iff⟩
  · intro token after run
    obtain ⟨value, table, number, tagged, carried, kept⟩ := parts_of_compressedToken run
    refine ⟨value, table, number, tagged, carried, kept, ?_⟩
    -- The table is right exactly if nothing is carried, and then the row is whole.
    rw [Token.LeadsTo, carried, kept]
    omega
  · intro value after number
    exact exists_compressedToken_iff number
  · intro index decoded
    obtain ⟨listed, row⟩ := CodedKind.parts_of_decode decoded
    obtain ⟨same, kept⟩ := index.parts_of_token
    refine ⟨listed, row, same, kept, ?_⟩
    rw [Token.LeadsTo, same, kept]
    omega

theorem decoded_references_exact_iff_sample :
    (∃ value table, Read.compressedUnsigned.runAt #[0x0D] 0 = (.ok value, 1) ∧
      TypeSig.tokenTables[value % 4]? = some table ∧ value / 4 < 2 ^ 24 ∧
      Token.LeadsTo ⟨0x01000003⟩ table (value / 4)) ∧
    Token.LeadsTo (CodedIndex.token ⟨.typeRef, 3⟩) .typeRef 3 := by
  have token : Read.compressedToken.runAt #[0x0D] 0 = (.ok ⟨0x01000003⟩, 1) := by decide +kernel
  have number : Read.compressedUnsigned.runAt #[0x0D] 0 = (.ok 13, 1) := by decide +kernel
  have index : CodedKind.decode .typeDefOrRef 0x0D = .ok ⟨.typeRef, 3⟩ := by decide +kernel
  obtain ⟨compressed, -, coded, -⟩ :=
    decoded_references_exact_iff #[0x0D] 0 .typeDefOrRef 0x0D
  constructor
  · obtain ⟨value, table, read, tagged, -, -, exact⟩ := compressed _ _ token
    have same := read.symm.trans number
    cases same
    exact ⟨13, table, number, tagged, by decide, exact.mpr (by decide)⟩
  · exact (coded _ index).2.2.2.2.mpr (by decide)

/-- A reference to the row 16777217 of one table gives the token of the first row of another, and
a coded index of the row 16777221 that of the fifth. -/
theorem decoded_references_alias :
    (Read.compressedUnsigned.runAt #[0xC4, 0, 0, 5] 0 = (.ok (4 * 0x1000001 + 1), 4) ∧
      TypeSig.tokenTables[1]? = some .typeRef ∧
      Read.compressedToken.runAt #[0xC4, 0, 0, 5] 0 = (.ok ⟨0x02000001⟩, 4) ∧
      Token.LeadsTo ⟨0x02000001⟩ .typeDef 1) ∧
    CodedKind.decode .typeDefOrRef 0x04000014 = .ok ⟨.typeDef, 0x01000005⟩ ∧
      Token.LeadsTo (CodedIndex.token ⟨.typeDef, 0x01000005⟩) .typeDef 5 := by
  decide +kernel

end Metadata

end ClrDecompiler
