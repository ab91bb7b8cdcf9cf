/-
This file defines metadata tokens.
-/

import ClrDecompiler.Metadata.TableId
import ClrDecompiler.Text.Hex

namespace ClrDecompiler.Metadata

/-- A reference to a row of a metadata table. The high byte is the table number and the
other 24 bits are the row, counted from one. -/
structure Token where
  value : UInt32
  deriving DecidableEq, Repr, Inhabited

namespace Token

/-- The token of a row. Only the low 24 bits of the row fit. -/
def ofParts (table : UInt8) (row : UInt32) : Token :=
  ⟨table.toUInt32 <<< 24 ||| (row &&& 0x00FFFFFF)⟩

def ofRow (table : TableId) (row : Nat) : Token :=
  ofParts (UInt8.ofNat table.number) (UInt32.ofNat row)

def table (token : Token) : UInt8 :=
  (token.value >>> 24).toUInt8

def row (token : Token) : UInt32 :=
  token.value &&& 0x00FFFFFF

def isNull (token : Token) : Bool :=
  token.row == 0

def pointsInto (token : Token) (table : TableId) : Bool :=
  token.table.toNat == table.number

def text (token : Token) : String :=
  "0x" ++ Hex.lower 8 token.value.toNat

def description (token : Token) : String :=
  let table := Hex.lower 2 token.table.toNat
  s!"Token({token.text}, table: 0x{table}, row: {token.row})"

end Token

end ClrDecompiler.Metadata
