/-
This file computes the values of tokens from tables and rows.
-/

import ClrDecompiler.Metadata.Token

namespace ClrDecompiler.Metadata

theorem TableId.number_lt (table : TableId) : table.number < TableId.slots := by
  cases table <;> decide

/-! The parts of a token are the quotient and the remainder of its value. -/

/-- The row of a token is in its low 24 bits. -/
theorem Token.toNat_row (token : Token) : token.row.toNat = token.value.toNat % 0x1000000 := by
  change (token.value &&& 0x00FFFFFF).toNat = _
  rw [UInt32.toNat_and]
  exact Nat.and_two_pow_sub_one_eq_mod _ 24

/-- The table of a token is in its high byte. -/
theorem Token.toNat_table (token : Token) : token.table.toNat = token.value.toNat / 0x1000000 := by
  have bound := token.value.toNat_lt
  change ((token.value >>> 24).toUInt8).toNat = _
  rw [UInt32.toNat_toUInt8, UInt32.toNat_shiftRight]
  change token.value.toNat >>> 24 % 256 = _
  rw [Nat.shiftRight_eq_div_pow]
  omega

/-- A row of up to 24 bits stands below the number of its table. -/
theorem Token.ofRow_value {table : TableId} {row : Nat} (fits : row < 0x1000000) :
    (Token.ofRow table row).value.toNat = table.number * 0x1000000 + row := by
  have number : table.number < 64 := table.number_lt
  have high : (UInt8.ofNat table.number).toUInt32.toNat = table.number := by
    rw [UInt8.toNat_toUInt32, UInt8.toNat_ofNat_of_lt' (by change _ < 256; omega)]
  have low : (UInt32.ofNat row &&& 0x00FFFFFF).toNat = row := by
    rw [UInt32.toNat_and, UInt32.toNat_ofNat_of_lt' (by change _ < 4294967296; omega)]
    change row &&& (2 ^ 24 - 1) = row
    rw [Nat.and_two_pow_sub_one_eq_mod, Nat.mod_eq_of_lt fits]
  simp only [Token.ofRow, Token.ofParts]
  rw [UInt32.toNat_or, low, UInt32.toNat_shiftLeft, high]
  change table.number <<< 24 % 2 ^ 32 ||| row = _
  rw [Nat.shiftLeft_eq, Nat.mod_eq_of_lt (by omega), Nat.mul_comm,
    ← Nat.two_pow_add_eq_or_of_lt fits]

/-- A token of a table is the token of its row. -/
theorem Token.eq_ofRow {token : Token} {table : TableId} (points : token.pointsInto table = true) :
    token = Token.ofRow table token.row.toNat ∧ token.row.toNat < 0x1000000 := by
  have fits : token.row.toNat < 0x1000000 := by
    rw [token.toNat_row]
    exact Nat.mod_lt _ (by decide)
  have number : table.number = token.value.toNat / 0x1000000 := by
    have same : token.table.toNat = table.number := eq_of_beq points
    rw [← same, token.toNat_table]
  have value : token.value.toNat = (Token.ofRow table token.row.toNat).value.toNat := by
    rw [Token.ofRow_value fits, number, token.toNat_row]
    omega
  exact ⟨congrArg Token.mk (UInt32.toNat_inj.mp value), fits⟩

/-- A token that is not null has a row. -/
theorem Token.row_ne_zero {token : Token} (filled : token.isNull = false) :
    token.row.toNat ≠ 0 := by
  intro zero
  have null : token.isNull = true := beq_iff_eq.mpr (UInt32.toNat_inj.mp zero)
  rw [null] at filled
  exact Bool.noConfusion filled

section

variable {table : TableId} {row : Nat} (fits : row < 0x1000000)

include fits

/-- The token of a row keeps the row. -/
theorem Token.ofRow_row : (Token.ofRow table row).row.toNat = row := by
  rw [Token.toNat_row, Token.ofRow_value fits]
  omega

theorem Token.ofRow_pointsInto : (Token.ofRow table row).pointsInto table = true := by
  rw [Token.pointsInto, beq_iff_eq, Token.toNat_table, Token.ofRow_value fits]
  omega

/-- The token of a row is not null. -/
theorem Token.ofRow_isNull (positive : 0 < row) : (Token.ofRow table row).isNull = false := by
  apply beq_false_of_ne
  intro zero
  have same := congrArg UInt32.toNat zero
  rw [Token.ofRow_row fits] at same
  exact Nat.ne_of_gt positive same

/-- Different rows of a table have different tokens. -/
theorem Token.ofRow_inj {other : Nat} (otherFits : other < 0x1000000) :
    Token.ofRow table row = Token.ofRow table other ↔ row = other := by
  refine ⟨fun same => ?_, congrArg (Token.ofRow table)⟩
  rw [← @Token.ofRow_row table row fits, same, Token.ofRow_row otherFits]

end

end ClrDecompiler.Metadata
