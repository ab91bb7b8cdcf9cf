/-
This file encodes and decodes coded indexes: a tag in the low bits chooses the table and
the other bits are the row.
-/

import ClrDecompiler.Bytes.Cursor

namespace ClrDecompiler.Metadata

/-- The number of binary digits of a number. -/
def bitLength (value : Nat) : Nat :=
  if value = 0 then 0 else value.log2 + 1

/-- A row of a table, counted from one. Row zero refers to nothing. -/
structure CodedIndex where
  table : TableId
  row : UInt32
  deriving DecidableEq, Repr

namespace CodedIndex

def isNull (index : CodedIndex) : Bool :=
  index.row == 0

def token (index : CodedIndex) : Token :=
  Token.ofParts (UInt8.ofNat index.table.number) index.row

end CodedIndex

namespace CodedKind

def tagBits (kind : CodedKind) : Nat :=
  bitLength (kind.candidates.length - 1)

def decode (kind : CodedKind) (value : UInt32) : Except Fault CodedIndex :=
  match kind.candidates[value.toNat % (1 <<< kind.tagBits)]? with
  | some table => .ok ⟨table, UInt32.ofNat (value.toNat >>> kind.tagBits)⟩
  | none => .error .outOfBounds

/-- The attribute constructors use the tags that the format gives them and not the first
candidate's. -/
def tag? (kind : CodedKind) (table : TableId) : Option Nat :=
  match kind, table with
  | .customAttributeType, .methodDef => some 2
  | .customAttributeType, .memberRef => some 3
  | .customAttributeType, _ => none
  | kind, table => kind.candidates.findIdx? (· = table)

/-- Row bits beyond the 32 bits of the encoded form are lost. -/
def encode (kind : CodedKind) (table : TableId) (row : UInt32) : Except Fault UInt32 :=
  match kind.tag? table with
  | some tag => .ok (UInt32.ofNat ((row.toNat <<< kind.tagBits) + tag))
  | none => .error (.malformed (.codedTable kind table))

end CodedKind

end ClrDecompiler.Metadata
