/-
This file writes instructions as code, apart from their decoder: which operands an opcode can
have, and the bytes of an opcode, an operand and an instruction.
-/

import ClrDecompiler.Cil.Instruction
import ClrDecompiler.Proofs.Bytes.Recognition

namespace ClrDecompiler.Cil

open Bytes

/-- The high byte of a two-byte opcode comes first. -/
def Opcode.encode (opcode : Opcode) : List UInt8 :=
  if opcode.value < 0x100 then [opcode.value.toUInt8]
  else [(opcode.value >>> 8).toUInt8, opcode.value.toUInt8]

/-- A target has an offset of 32 bits. Its distance from the end of its instruction fits into
the operand. -/
def IsReached (width next target : Nat) : Prop :=
  target < UInt32.size ∧ FitsSigned width (target - next)

instance (width next target : Nat) : Decidable (IsReached width next target) :=
  inferInstanceAs (Decidable (_ ∧ _))

def encodeTarget (width next target : Nat) : List UInt8 :=
  twosComplement width (target - next)

@[simp] theorem encodeTarget_length (width next target : Nat) :
    (encodeTarget width next target).length = width :=
  twosComplement_length _ _

namespace Operand

/-- The operand is of a kind and fits into the bytes of that kind. -/
@[simp] def Fits (next : Nat) : OperandKind → Operand → Prop
  | .none, .none => True
  | .int8, .signed value => FitsSigned 1 value
  | .uint8, .unsigned value => value < 256 ^ 1
  | .uint16, .unsigned value => value < 256 ^ 2
  | .int32, .signed value => FitsSigned 4 value
  | .int64, .signed value => FitsSigned 8 value
  | .float32, .float32 _ => True
  | .float64, .float64 _ => True
  | .token, .token _ => True
  | .shortBranch, .target offset => IsReached 1 next offset
  | .branch, .target offset => IsReached 4 next offset
  | .jumpTable, .jumpTable targets => ∀ offset ∈ targets, IsReached 4 next offset
  | _, _ => False

/-- The bytes of an operand in an instruction that ends at `next`. -/
@[simp] def encode (next : Nat) : OperandKind → Operand → List UInt8
  | .int8, .signed value => twosComplement 1 value
  | .uint8, .unsigned value => littleEndian 1 value
  | .uint16, .unsigned value => littleEndian 2 value
  | .int32, .signed value => twosComplement 4 value
  | .int64, .signed value => twosComplement 8 value
  | .float32, .float32 bits => littleEndian 4 bits.toNat
  | .float64, .float64 bits => littleEndian 8 bits.toNat
  | .token, .token found => littleEndian 4 found.value.toNat
  | .shortBranch, .target offset => encodeTarget 1 next offset
  | .branch, .target offset => encodeTarget 4 next offset
  | .jumpTable, .jumpTable targets =>
    littleEndian 4 targets.length ++ targets.flatMap (encodeTarget 4 next)
  | _, _ => []

/-- A jump table says how many targets it has. -/
@[simp] def targetCount : Operand → Nat
  | .jumpTable targets => targets.length
  | _ => 0

end Operand

namespace Instruction

def encode (instruction : Instruction) : List UInt8 :=
  instruction.opcode.encode ++
    instruction.operand.encode instruction.nextOffset instruction.opcode.operand

/-- The opcode is known, the operand is of its kind, and the size is that of the code. -/
structure IsWellFormed (instruction : Instruction) : Prop where
  known : instruction.opcode ∈ Opcode.all
  fits : instruction.operand.Fits instruction.nextOffset instruction.opcode.operand
  sized : instruction.size = instruction.encode.length

end Instruction

def encodeAll (instructions : List Instruction) : List UInt8 :=
  instructions.flatMap Instruction.encode

/-- The instructions lie one after the other from `start` to `stop`. -/
def Tiles : Nat → List Instruction → Nat → Prop
  | start, [], stop => start = stop
  | start, first :: rest, stop =>
    first.offset = start ∧ 0 < first.size ∧ Tiles first.nextOffset rest stop

theorem Opcode.encode_length_pos (opcode : Opcode) : 0 < opcode.encode.length := by
  rw [encode]
  split
  · exact Nat.one_pos
  · exact Nat.two_pos

/-- No instruction is empty. -/
theorem Instruction.encode_length_pos (instruction : Instruction) :
    0 < instruction.encode.length := by
  rw [encode, List.length_append]
  exact Nat.add_pos_left instruction.opcode.encode_length_pos _

/-- A table of targets is longer than their number. -/
theorem Operand.targetCount_le {next : Nat} {kind : OperandKind} {operand : Operand}
    (fits : operand.Fits next kind) : operand.targetCount ≤ (operand.encode next kind).length := by
  cases operand with
  | jumpTable targets =>
    cases kind with
    | jumpTable =>
      have size := flatMap_length (encodeTarget_length 4 next) targets
      rw [targetCount, encode, List.length_append, size]
      omega
    | _ => exact fits.elim
  | _ => exact Nat.zero_le _

end ClrDecompiler.Cil
